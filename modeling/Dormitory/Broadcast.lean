import Dormitory.AnnouncementService
import Dormitory.Txn.Slot

/-!
# Racing broadcasts

Any number of `createBroadcast` calls under one key, interleaved. Like
`PaymentService.create`, the call looks the key up first and catches the
violated index of a lost race; unlike it, it sets no savepoint, so its second
lookup meets an aborted transaction. One row per key is safe whatever the
schedule; that every call returns it needs a schedule in which no INSERT comes
after the winner's COMMIT.
-/

namespace Dormitory
open Txn

/-! ## The slot of the key -/

section slot
variable (S : Server) (c : Id) (key : String)

/-- The key's entry of the unique index on announcements. -/
def announcementSlot : Slot (engine S) Announcement where
  table := Db.announcements
  write := Row.announcement
  has a := a.companyId = c ∧ a.idempotencyKey = key
  entry := .announcementKey c key
  put _ _ := rfl
  locked r has := by
    simp only [decide_eq_true_eq] at has
    simp [engine, Row.locks, has.1, has.2]

end slot

/-- The job announces the row `id`. -/
def Job.Announces (id : Id) : Job → Prop
  | .announcement _ _ _ announcementId _ _ _ => announcementId = id
  | _ => False

instance (id : Id) : ∀ j : Job, Decidable (j.Announces id)
  | .announcement _ _ _ announcementId _ _ _ => inferInstanceAs (Decidable (announcementId = id))
  | .invoice_issued .. | .payment_approved .. | .payment_rejected .. => isFalse fun h => h

namespace AnnouncementService

/-- The company's LINE channel. -/
def channel (ctx : Ctx) (db : Db) : Option CompanyLineChannel :=
  db.channels.rows.find? fun h => h.companyId = ctx.companyId

/-- The company's active tenants with a LINE account. -/
def recipients (ctx : Ctx) (db : Db) : List Tenant :=
  db.tenants.rows.filter fun t =>
    t.companyId = ctx.companyId ∧ t.status = .active ∧ t.lineUserId ≠ none

/-- What a first broadcast is refused with: the guards, then the author's
foreign key. -/
def refusal (ctx : Ctx) (input : CreateAnnouncementInput) (actorUserId : Id) (db : Db) :
    Option Failure :=
  if input.target ≠ .all then some unsupportedAudience
  else if input.sendNow = false then some unsupportedSchedule
  else if (channel ctx db).isNone then some noLineChannel
  else if ((recipients ctx db).map Tenant.id).isEmpty then some noRecipients
  else if (db.company? ctx.companyId ctx.companyId).isNone then some noCompany
  else if (db.users.find? actorUserId).isNone then some .foreignKey
  else none

/-- The INSERT succeeded in `x`, and the jobs since are the row's. -/
structure Won (c : Id) (key : String) (r : Announcement) (x : Session billing)
    (js : List Job) (db : Db) : Prop where
  writes : x.writes = [.announcement r]
  sound : x.broken = false
  company : r.companyId = c
  used : r.idempotencyKey = key
  unused : db.announcementByKey? c key = none
  fresh : db.announcements.find? r.id = none
  jobs : ∀ j ∈ js, j.Announces r.id

/-- The key that a statement inserts an announcement under. -/
def insertedKey : Query → Option String
  | .announcementCreate row => some row.idempotencyKey
  | _ => none

/-- Two kinds of steps lose a row or a job: an INSERT under a key that is
already in use, and a crash after the first job. -/
def OnTime {ι : Type} [DecidableEq ι] (S : Server) (c : Config billing ι Announcement) :
    Action ι → Prop
  | .crash t => c.jobsOf t = []
  | a => ∀ e ∈ c.executes a, ∀ key ∈ insertedKey e.1.query,
    (e.2.view (engine S) c.db).announcementByKey? e.1.company key = none

instance {ι : Type} [DecidableEq ι] (S : Server) (c : Config billing ι Announcement) :
    ∀ a, Decidable (OnTime S c a)
  | .crash t => inferInstanceAs (Decidable (c.jobsOf t = []))
  | .advance _ | .queueFails _ | .take _ =>
    inferInstanceAs (Decidable (∀ e ∈ c.executes _, ∀ key ∈ insertedKey e.1.query, _ = none))

/-- What the requests owe if the schedule is on time. -/
def terms {ι : Type} (S : Server) (ctx : Ctx) (key : String) (input : ι → CreateAnnouncementInput)
    (actorUserId : ι → Id) (first : Db) : Terms billing ι Announcement where
  kind := (announcementSlot S ctx.companyId key).Takes
  may s v := ∀ row, s.query = .announcementCreate row →
    v.announcementByKey? s.company row.idempotencyKey = none
  crash _ js := js = []
  holds _ x js db := (x.writes = [] ∧ js = []) ∨ ∃ r, Won ctx.companyId key r x js db
  ends t
    | .ok a, x, js, db =>
      (db.announcementByKey? ctx.companyId key = some a ∧ x.broken = false ∧ x.writes = [] ∧
        js = []) ∨ Won ctx.companyId key a x js db
    | .error e, _, js, _ => js = [] ∧ refusal ctx (input t) (actorUserId t) first = some e

section request
variable {ι : Type} {S : Server} {ctx : Ctx} {key : String} {input : ι → CreateAnnouncementInput}
  {actorUserId : ι → Id} {first : Db} {t : ι}

theorem Won.later {r : Announcement} {x : Session billing} {js : List Job} {db db' : Db}
    (h : Won ctx.companyId key r x js db)
    (others : Interferes (engine S) (announcementSlot S ctx.companyId key).Takes
      (x.held (engine S)) db db') : db' = db := by
  refine Slot.alone (s := announcementSlot S ctx.companyId key) ?_ others
  simp [announcementSlot, Session.held, h.writes, engine, Row.locks, h.company, h.used]

/-- A read at the start of the request. -/
theorem pays_read {q : Query} {f : q.Ans → Call Announcement} {seen : List (Statement × Db)}
    {db : Db} (ans : Db → q.Ans) (reads : ∀ db, S.run ctx.companyId q db = .ok ([], ans db))
    (next : ∀ db' seen', Interferes (engine S)
    (announcementSlot S ctx.companyId key).Takes [] db db' →
      (f (ans db')).Pays (engine S) (terms S ctx key input actorUserId first) t
        ⟨[], [], false, seen'⟩ [] db') :
    (prisma ctx q >>= f).Pays (engine S) (terms S ctx key input actorUserId first) t
      ⟨[], [], false, seen⟩ [] db := by
  rw [prisma_bind]
  intro db' others
  refine ⟨.inl ⟨rfl, rfl⟩, fun _ => ?_⟩
  rw [exec_ok S ctx q db' (x := ⟨[], [], false, seen⟩) rfl (reads _)]
  exact next db' _ others

theorem pays_refuse {e : Failure} {seen : List (Statement × Db)} {db : Db}
    (refused : refusal ctx (input t) (actorUserId t) first = some e) :
    (Prog.fail e : Call Announcement).Pays (engine S) (terms S ctx key input actorUserId first) t
      ⟨[], [], false, seen⟩ [] db :=
  fun _ _ => ⟨.inl ⟨rfl, rfl⟩, rfl, refused⟩

/-- The jobs of the winner, one recipient after the other. -/
theorem pays_enqueue {r : Announcement} (companyId : Id) (companySlug title body : String)
    (total : Nat) (tenantIds : List Id) {x : Session billing} {js : List Job} {db : Db}
    (won : Won ctx.companyId key r x js db) :
    (tenantIds.foldr (fun tenantId rest => do
        NotificationService.enqueue
          (.announcement companyId companySlug tenantId r.id title body total)
        rest) (pure ()) >>= fun _ => (pure r : Call Announcement)).Pays (engine S)
      (terms S ctx key input actorUserId first) t x js db := by
  induction tenantIds generalizing js with
  | nil =>
    intro db' others
    rw [won.later others]
    exact ⟨.inr ⟨r, won⟩, .inr won⟩
  | cons tenantId tenantIds ih =>
    rw [List.foldr_cons, NotificationService.enqueue_eq]
    intro db' others
    rw [won.later others]
    refine ⟨.inr ⟨r, won⟩, ih ⟨won.writes, won.sound, won.company, won.used, won.unused,
      won.fresh, fun j hj => ?_⟩, ih won⟩
    rcases List.mem_append.mp hj with hj | hj
    · exact won.jobs j hj
    · rw [List.mem_singleton.mp hj]
      exact rfl

/-- The INSERT and what follows it. -/
theorem insertOrFind_bind (row : Announcement) (f : Announcement × Bool → Call Announcement) :
    insertOrFind ctx row >>= f =
      @Prog.sql billing _ ⟨ctx.companyId, .announcementCreate row⟩ fun
        | .ok a => f (a, true)
        | .error err => (match err with
          | .prisma "P2002" _ => do
            let found ← prisma ctx (.announcementFindByKey row.idempotencyKey)
            match found with
            | some found => pure (found, false)
            | none => Prog.throw err
          | _ => Prog.throw err) >>= f := by
  change Prog.sql _ _ = _
  congr 1
  funext r
  cases r with
  | ok a => rfl
  | error e => rfl

/-- A table that no broadcast writes is the same in every committed state. -/
theorem same_table {α : Type} (f : Db → α) (keeps : ∀ db r, f (Row.apply db (.announcement r)) =
    f db)
    {db : Db}
    (others : Interferes (engine S) (announcementSlot S ctx.companyId key).Takes [] first db) :
    f db = f first := Slot.frame f keeps others

/-- The INSERT, in time, and the jobs. -/
theorem insertOrFind_pays {newId : Id} (fresh : first.announcements.find? newId = none)
    {seen : List (Statement × Db)} {db : Db} {slug : String} {tenantIds : List Id}
    (since : Interferes (engine S) (announcementSlot S ctx.companyId key).Takes [] first db)
    (known : refusal ctx (input t) (actorUserId t) first =
      if (first.users.find? (actorUserId t)).isNone then some .foreignKey else none) :
    (do
      let (created, fresh) ← insertOrFind ctx
        (sendingRow ctx newId (input t) key (actorUserId t))
      if fresh then
        NotificationService.enqueueAnnouncementBroadcast created.id ctx.companyId slug
          (input t).title (input t).body tenantIds
        pure created
      else pure created : Call Announcement).Pays (engine S)
        (terms S ctx key input actorUserId first) t ⟨[], [], false, seen⟩ [] db := by
  rw [insertOrFind_bind]
  intro db₁ others
  refine ⟨.inl ⟨rfl, rfl⟩, fun inTime => ?_⟩
  have unused : db₁.announcementByKey? ctx.companyId key = none := inTime _ rfl
  obtain rfl : db₁ = first :=
    Slot.untouched (s := announcementSlot S ctx.companyId key) unused (since.trans others)
  let row := sendingRow ctx newId (input t) key (actorUserId t)
  have run : S.run ctx.companyId (.announcementCreate row) db₁ =
      if (db₁.users.find? (actorUserId t)).isNone then .error .foreignKey
      else .ok ([.announcement row], row) := by
    change S.createAnnouncement row db₁ = _
    simp only [Server.createAnnouncement, row, sendingRow, fresh, unused, Option.isSome_none,
      Bool.false_eq_true, if_false]
  by_cases stranger : (db₁.users.find? (actorUserId t)).isNone
  · rw [if_pos stranger] at run known
    rw [exec_error S ctx _ db₁ (x := ⟨[], [], false, seen⟩) rfl run]
    exact fun _ _ => ⟨.inl ⟨rfl, rfl⟩, rfl, known⟩
  · rw [if_neg stranger] at run
    rw [exec_ok S ctx _ db₁ (x := ⟨[], [], false, seen⟩) rfl run]
    refine pays_enqueue ctx.companyId slug _ _ _ tenantIds ?_
    exact ⟨rfl, rfl, rfl, rfl, unused, fresh, fun _ hj => by cases hj⟩

theorem createBroadcast_pays (newId : Id) (fresh : first.announcements.find? newId = none) :
    (createBroadcast ctx newId (input t) key (actorUserId t)).Pays (engine S)
      (terms S ctx key input actorUserId first) t {} [] first := by
  unfold createBroadcast
  refine pays_read (fun db => db.announcementByKey? ctx.companyId key) (fun _ => rfl) ?_
  intro db₁ seen₁ since₁
  cases existing : db₁.announcementByKey? ctx.companyId key with
  | some w =>
    intro db₂ others
    rw [Slot.taken (s := announcementSlot S ctx.companyId key) existing others]
    exact ⟨.inl ⟨rfl, rfl⟩, .inl ⟨existing, rfl, rfl, rfl⟩⟩
  | none =>
    by_cases target : (input t).target = .all
    · by_cases sendNow : (input t).sendNow = false
      · simp only [target, sendNow]
        exact pays_refuse (by simp [refusal, target, sendNow])
      · simp only [target, sendNow, ne_eq, not_true_eq_false, if_false]
        refine pays_read (channel ctx) (fun _ => rfl) ?_
        intro db₂ seen₂ since₂
        have since₂ := since₁.trans since₂
        rw [same_table (channel ctx) (fun _ _ => rfl) since₂]
        by_cases silent : (channel ctx first).isNone
        · rw [if_pos silent]
          exact pays_refuse (by simp [refusal, target, sendNow, silent])
        rw [if_neg silent]
        refine pays_read (recipients ctx) (fun _ => rfl) ?_
        intro db₃ seen₃ since₃
        have since₃ := since₂.trans since₃
        rw [same_table (recipients ctx) (fun _ _ => rfl) since₃]
        by_cases nobody : ((recipients ctx first).map Tenant.id).isEmpty
        · rw [if_pos nobody]
          exact pays_refuse (by simp only [refusal, target, sendNow, silent, nobody]; rfl)
        rw [if_neg nobody]
        refine pays_read (fun db => db.company? ctx.companyId ctx.companyId) (fun _ => rfl) ?_
        intro db₄ seen₄ since₄
        have since₄ := since₃.trans since₄
        rw [same_table (fun db => db.company? ctx.companyId ctx.companyId) (fun _ _ => rfl) since₄]
        cases company : first.company? ctx.companyId ctx.companyId with
        | none =>
          refine pays_refuse ?_
          simp only [refusal, target, sendNow, silent, nobody, company]
          rfl
        | some company' =>
          have known : refusal ctx (input t) (actorUserId t) first =
              if (first.users.find? (actorUserId t)).isNone then some .foreignKey else none := by
            simp only [refusal, target, sendNow, silent, nobody, company]
            rfl
          exact insertOrFind_pays fresh since₄ known
    · simp only [ne_eq, target, not_false_eq_true, if_true]
      exact pays_refuse (by simp [refusal, target])

end request

section run
variable {ι : Type} [DecidableEq ι] {S : Server} {ctx : Ctx} {key : String}
  {input : ι → CreateAnnouncementInput} {actorUserId : ι → Id} {first : Db}

theorem OnTime.permits {c : Config billing ι Announcement} {a : Action ι} (h : OnTime S c a) :
    c.Permits (engine S) (terms S ctx key input actorUserId first) a := by
  constructor
  · intro s x executes row insert
    have h : ∀ e ∈ c.executes a, ∀ key ∈ insertedKey e.1.query,
        (e.2.view (engine S) c.db).announcementByKey? e.1.company key = none := by
      cases a with
      | advance t | queueFails t | take n => exact h
      | crash t => cases executes
    exact h (s, x) executes row.idempotencyKey (by rw [insert]; rfl)
  · rintro t p x rfl -
    exact h

omit [DecidableEq ι] in
/-- Who returns has an intact transaction. -/
theorem ends_sound {t : ι} {a : Announcement} {x : Session billing} {js : List Job} {db : Db}
    (ends : (terms S ctx key input actorUserId first).ends t (.ok a) x js db) : x.broken =
    false := by
  rcases ends with ⟨-, sound, -⟩ | won
  · exact sound
  · exact won.sound

omit [DecidableEq ι] in
/-- The answer of a committed request is in the slot from then on. -/
theorem returned {t : ι} {a : Announcement} {x : Session billing} {js : List Job} {db now : Db}
    (ends : (terms S ctx key input actorUserId first).ends t (.ok a) x js db)
    (since : Interferes (engine S) (announcementSlot S ctx.companyId key).Takes []
      (x.view (engine S) db) now) : now.announcementByKey? ctx.companyId key = some a := by
  have known : (x.view (engine S) db).announcementByKey? ctx.companyId key = some a := by
    rcases ends with ⟨known, -, nothing, -⟩ | won
    · rw [Session.view, nothing]
      exact known
    · rw [Session.view, won.writes]
      exact Slot.row?_apply (s := announcementSlot S ctx.companyId key)
        (decide_eq_true ⟨won.company, won.used⟩) won.unused won.fresh
  rw [Slot.taken (s := announcementSlot S ctx.companyId key) known since]
  exact known

/-- A job announces the row in the slot, if there is one. -/
theorem announces {c : Config billing ι Announcement}
    (paid : Paid (engine S) (terms S ctx key input actorUserId first) first c) {t : ι} {j : Job}
    (added : j ∈ c.jobsOf t) {r : Announcement}
    (known : c.db.announcementByKey? ctx.companyId key = some r) : j.Announces r.id := by
  have pays := paid.pays t
  cases tx : c.txs t with
  | running p x =>
    rw [tx] at pays
    rcases pays.2.holds with ⟨-, nothing⟩ | ⟨r', won⟩
    · rw [nothing] at added
      cases added
    · rw [won.unused] at known
      cases known
  | committed a =>
    rw [tx] at pays
    obtain ⟨x, db, ends, -, since⟩ := pays
    have mine := returned ends since
    rw [known] at mine
    cases mine
    rcases ends with ⟨-, -, -, nothing⟩ | won
    · rw [nothing] at added
      cases added
    · exact won.jobs j added
  | rolledBack res =>
    rw [tx] at pays
    obtain ⟨x, db, ends, lost, -⟩ := pays
    cases res with
    | error e =>
      rw [ends.1] at added
      cases added
    | ok a =>
      have broken := lost rfl
      rw [ends_sound ends] at broken
      cases broken
  | crashed =>
    rw [tx] at pays
    obtain ⟨x, db, -, nothing, -⟩ := pays
    rw [nothing] at added
    cases added

end run
end AnnouncementService

open AnnouncementService in
/-- **One announcement per key, as long as no INSERT is late.** In every
interleaving of `createBroadcast` calls under one key: at most one row has the
key in all committed states together; the jobs are that row's; a call that
commits returns it; and a call that does not commit was refused by a guard. -/
theorem one_announcement_per_key {ι : Type} [Fintype ι] [DecidableEq ι] (S : Server) (ctx : Ctx)
    (key : String) (newId : ι → Id) (input : ι → CreateAnnouncementInput) (actorUserId : ι → Id)
    (db : Db) (unique : (announcementSlot S ctx.companyId key).Unique db)
    (fresh : ∀ t, db.announcements.find? (newId t) = none) (as : List (Action ι))
    (c : Config billing ι Announcement)
    (run : (Config.start db fun t =>
      createBroadcast ctx (newId t) (input t) key (actorUserId t)).run (engine S) as = some c)
    (onTime : (Config.start db fun t =>
      createBroadcast ctx (newId t) (input t) key (actorUserId t)).Along (engine S) (OnTime S) as) :
    (∀ d ∈ c.db :: c.past, ∀ d' ∈ c.db :: c.past, ∀ r ∈ d.announcements.rows,
      ∀ r' ∈ d'.announcements.rows, r.companyId = ctx.companyId → r'.companyId = ctx.companyId →
      r.idempotencyKey = key → r'.idempotencyKey = key → r = r') ∧
    (∀ t j r, (t, j) ∈ c.jobs → c.db.announcementByKey? ctx.companyId key = some r →
      j.Announces r.id) ∧
    (∀ t a, c.txs t = .committed a → c.db.announcementByKey? ctx.companyId key = some a) ∧
    ∀ t r, c.txs t = .rolledBack r →
      ∃ e, r = .error e ∧ refusal ctx (input t) (actorUserId t) db = some e := by
  have guarantee : ∀ t a x js d,
      (terms S ctx key input actorUserId db).ends t (.ok a) x js d → x.broken = false →
      (announcementSlot S ctx.companyId key).Takes d x.writes := by
    rintro t a x js d (⟨-, -, nothing, -⟩ | won) -
    · exact .inl nothing
    · exact .inr ⟨a, won.writes, decide_eq_true ⟨won.company, won.used⟩, won.unused, won.fresh⟩
  have paid := Paid.run_paid (fun t => createBroadcast_pays (newId t) (fresh t)) guarantee as run
    (onTime.mono fun _ _ => OnTime.permits)
  refine ⟨?_, ?_, ?_, ?_⟩
  · intro d hd d' hd' r hr r' hr' company company' used used'
    exact Slot.unique_ever unique (paid.reached c.db List.mem_cons_self) (paid.since hd)
      (paid.since hd') hr hr' (decide_eq_true ⟨company, used⟩) (decide_eq_true ⟨company', used'⟩)
  · intro t j r added known
    exact announces paid (Config.mem_jobsOf.2 added) known
  · intro t a here
    have pays := paid.pays t
    rw [here] at pays
    obtain ⟨x, d, ends, -, later⟩ := pays
    exact returned ends later
  · intro t r here
    have pays := paid.pays t
    rw [here] at pays
    obtain ⟨x, d, ends, lost, -⟩ := pays
    cases r with
    | error e => exact ⟨e, rfl, ends.2⟩
    | ok a =>
      have broken := lost rfl
      rw [ends_sound ends] at broken
      cases broken

namespace Demo

def hello : CreateAnnouncementInput := ⟨"hello", "water off at noon", .all, none, true⟩

/-- Two clicks on one button. -/
def broadcasters : Config billing (Fin 2) Announcement :=
  Config.start (db [] []) fun t =>
    AnnouncementService.createBroadcast ctx (50 + t) hello "key-of-a-broadcast" 7

/-- The first click is over when the second one starts. -/
def oneByOne : List (Action (Fin 2)) := List.replicate 8 (.advance 0) ++ List.replicate 2
    (.advance 1)

/-- Both look the key up, and the second INSERT runs after the first COMMIT. -/
def lateInsert : List (Action (Fin 2)) :=
  [.advance 0, .advance 1] ++ List.replicate 7 (.advance 0) ++ List.replicate 6 (.advance 1)

def broadcastAnswers (c : Config billing (Fin 2) Announcement) :
    List (Option (Except Failure Id)) :=
  [(0 : Fin 2), 1].map fun t => match c.txs t with
    | .committed a => some (.ok a.id)
    | .rolledBack (.error e) => some (.error e)
    | _ => none

end Demo

/-- Two clicks, one after the other, return one announcement. -/
theorem one_announcement_per_key_twice :
    (Demo.broadcasters.run (engine Demo.server) Demo.oneByOne).map Demo.broadcastAnswers =
      some [some (.ok 50), some (.ok 50)] ∧
    ∀ c, Demo.broadcasters.run (engine Demo.server) Demo.oneByOne = some c →
      ∀ t a, c.txs t = .committed a →
        c.db.announcementByKey? 1 "key-of-a-broadcast" = some a := by
  refine ⟨by decide, fun c run => ?_⟩
  exact (one_announcement_per_key Demo.server Demo.ctx "key-of-a-broadcast"
    (fun t : Fin 2 => 50 + t)
    (fun _ => Demo.hello) (fun _ => 7) (Demo.db [] []) (fun r hr => by cases hr) (fun _ => rfl)
    Demo.oneByOne c run (by decide)).2.2.1

/-- Both clicks are accepted by every guard and neither crashes; the one that
inserts late throws 25P02 and returns nothing. -/
theorem late_broadcast_throws :
    AnnouncementService.refusal Demo.ctx Demo.hello 7 (Demo.db [] []) = none ∧
    (Demo.broadcasters.run (engine Demo.server) Demo.lateInsert).map Demo.broadcastAnswers =
      some [some (.ok 50), some (.error .aborted)] := by
  decide

end Dormitory
