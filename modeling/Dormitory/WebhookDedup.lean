import Dormitory.LineWebhookService
import Dormitory.Txn.Insert
import Dormitory.Txn.Script

/-!
# Redelivered webhooks

Any number of deliveries, their transactions interleaved. An event is committed
under its entry of the unique index, once; the request that commits it is the
one that adds its job, and a request that meets the entry of another one goes on
with its next event.
-/

namespace Dormitory.Line
open Txn LineWebhookService

/-- The events, under their unique index. -/
def eventLog (stores : WebhookEvent → Bool) : Log (engine stores) WebhookEvent where
  table := Db.webhookEvents
  write := id
  entry := id
  put _ _ := rfl
  locked _ := List.mem_singleton_self _

/-- An event is committed for the company. -/
def Recorded (db : Db) (companyId : Id) (event : LineWebhookEvent) : Prop :=
  ∃ r, db.webhookEvents.find? (companyId, eventIdOf event) = some r

/-- The channel that a delivery is for. -/
def Db.channelBySlug? (db : Db) (slug : String) : Option LineChannel :=
  ((db.companies.rows.find? fun c => c.slug = slug).filter fun c =>
    db.companyStatus c.id = .active).bind fun c =>
      db.channels.rows.find? fun h => h.companyId = c.id

/-- The tables that nobody writes. -/
def Db.setup (db : Db) : Table Company × (Id → CompanyStatus) × Table LineChannel :=
  (db.companies, db.companyStatus, db.channels)

/-! ## Where a call stands -/

section stages
variable (W : Webhook) (stores : WebhookEvent → Bool) (first : Db) (delivery : Delivery)

/-- The jobs are those of committed rows, whose keys were drawn for the first
`n` events. -/
def Queued (n : Nat) (js : List LineEventJob) (db : Db) : Prop :=
  (js.map LineEventJob.webhookEventRowId).Sublist ((List.range n).map delivery.draw) ∧
    ∀ j ∈ js, ∃ r ∈ db.webhookEvents.rows, j = eventJob r

/-- The delivery was accepted, and its first `n` events are recorded. -/
structure Accepted (channel : LineChannel) (payload : LineWebhookPayload)
    (pre rest : List LineWebhookEvent) (db : Db) : Prop where
  known : first.channelBySlug? delivery.companySlug = some channel
  parsed : W.parse delivery.rawBody = .ok payload
  split : payload.events = pre ++ rest
  recorded : ∀ e ∈ pre, Recorded db channel.companyId e

/-- Where a call is between two transactions. -/
inductive Stage (db : Db) (js : List LineEventJob) : Script line Ack → Prop
  | start (same : db.setup = first.setup) (none : js = []) : Stage db js (handleWebhook W delivery)
  | refused (e : ApiError) (none : js = []) : Stage db js (.done (.error e))
  | loop (channel : LineChannel) (payload : LineWebhookPayload) (pre rest : List LineWebhookEvent)
      (ack : Ack) (accepted : Accepted W first delivery channel payload pre rest db)
      (queued : Queued delivery pre.length js db) :
      Stage db js (eachEvent channel.companyId channel.channelId delivery.draw pre.length ack rest)
  | enqueue (channel : LineChannel) (payload : LineWebhookPayload)
      (pre rest : List LineWebhookEvent) (e : LineWebhookEvent) (ack : Ack) (r : WebhookEvent)
      (accepted : Accepted W first delivery channel payload (pre ++ [e]) rest db)
      (queued : Queued delivery pre.length js db) (stored : r ∈ db.webhookEvents.rows)
      (drawn : r.id = delivery.draw pre.length) :
      Stage db js (enqueue (eventJob r) fun result => eachEvent channel.companyId channel.channelId
        delivery.draw (pre.length + 1) (result.count ack) rest)

variable {W stores first delivery} {db db' : Db} {held : List (Id × String)}
  {js : List LineEventJob} {channel : LineChannel} {payload : LineWebhookPayload}
  {pre rest : List LineWebhookEvent} {n : Nat} {s : Script line Ack}

theorem Recorded.later {companyId : Id} {e : LineWebhookEvent}
    (h : Interferes (engine stores) (eventLog stores).Inserts held db db')
    (recorded : Recorded db companyId e) : Recorded db' companyId e := by
  obtain ⟨r, found⟩ := recorded
  exact ⟨r, Log.find?_later (l := eventLog stores) h found⟩

theorem rows_later (h : Interferes (engine stores) (eventLog stores).Inserts held db db')
    {r : WebhookEvent} (mem : r ∈ db.webhookEvents.rows) : r ∈ db'.webhookEvents.rows :=
  Table.find?_mem (Log.find?_later (l := eventLog stores) h (Table.find?_of_mem mem))

theorem Queued.later (h : Interferes (engine stores) (eventLog stores).Inserts held db db')
    (queued : Queued delivery n js db) : Queued delivery n js db' := by
  refine ⟨queued.1, fun j hj => ?_⟩
  obtain ⟨r, mem, same⟩ := queued.2 j hj
  exact ⟨r, rows_later h mem, same⟩

theorem Queued.more (queued : Queued delivery n js db) : Queued delivery (n + 1) js db := by
  refine ⟨queued.1.trans ?_, queued.2⟩
  rw [List.range_succ, List.map_append]
  exact List.sublist_append_left _ _

theorem Accepted.later (h : Interferes (engine stores) (eventLog stores).Inserts held db db')
    (accepted : Accepted W first delivery channel payload pre rest db) :
    Accepted W first delivery channel payload pre rest db' :=
  ⟨accepted.known, accepted.parsed, accepted.split,
    fun e he => (accepted.recorded e he).later h⟩

theorem setup_later (h : Interferes (engine stores) (eventLog stores).Inserts held db db') :
    db'.setup = db.setup :=
  Log.frame (l := eventLog stores) Db.setup (fun _ _ => rfl) h

theorem Stage.later (h : Interferes (engine stores) (eventLog stores).Inserts held db db')
    (stage : Stage W first delivery db js s) : Stage W first delivery db' js s := by
  cases stage with
  | start same none => exact .start ((setup_later h).trans same) none
  | refused e none => exact .refused e none
  | loop channel payload pre rest ack accepted queued =>
    exact .loop channel payload pre rest ack (accepted.later h) (queued.later h)
  | enqueue channel payload pre rest e ack r accepted queued stored drawn =>
    exact .enqueue channel payload pre rest e ack r (accepted.later h) (queued.later h)
      (rows_later h stored) drawn

theorem Stage.queued (stage : Stage W first delivery db js s) : ∃ n, Queued delivery n js db := by
  have none : Queued delivery 0 [] db := ⟨List.Sublist.refl _, fun j hj => by cases hj⟩
  cases stage with
  | start same empty => exact ⟨0, empty ▸ none⟩
  | refused e empty => exact ⟨0, empty ▸ none⟩
  | loop channel payload pre rest ack accepted queued => exact ⟨_, queued⟩
  | enqueue channel payload pre rest e ack r accepted queued stored drawn => exact ⟨_, queued⟩

end stages

/-! ## What each transaction owes -/

/-- Every transaction inserts an event or nothing, and leaves the call at a
stage. -/
abbrev webhookTerms {ι : Type} (W : Webhook) (stores : WebhookEvent → Bool) (first : Db)
    (delivery : ι → Delivery) : Terms line ι (Script line Ack) where
  kind := (eventLog stores).Inserts
  holds t _ js db := ∃ n, Queued (delivery t) n js db
  ends t r x js db := (∃ n, Queued (delivery t) n js db) ∧ ∀ s, r = .ok s →
    if x.broken then Stage W first (delivery t) db js s
    else (eventLog stores).Inserts db x.writes ∧
      Stage W first (delivery t) (x.view (engine stores) db) js s

section transactions
variable {ι : Type} {W : Webhook} {stores : WebhookEvent → Bool} {first : Db}
  {delivery : ι → Delivery} {t : ι} {db : Db} {js : List LineEventJob} {x : Session line}

/-- A transaction without writes ends at a stage. -/
theorem pays_stage {s : Script line Ack} (stage : Stage W first (delivery t) db js s)
    (nothing : x.writes = []) :
    (Prog.ret s).Pays (engine stores) (webhookTerms W stores first delivery) t x js db := by
  intro db' others
  have stage := stage.later others
  refine ⟨stage.queued, stage.queued, ?_⟩
  rintro s' ⟨⟩
  cases x.broken with
  | true => exact stage
  | false =>
    have same : x.view (engine stores) db' = db' := by rw [Session.view, nothing]; rfl
    rw [same, nothing]
    exact ⟨.inl rfl, stage⟩

/-- A transaction that throws. -/
theorem pays_throw {e : ApiError} {n : Nat} (queued : Queued (delivery t) n js db) :
    (Prog.fail e).Pays (engine stores) (webhookTerms W stores first delivery) t x js db := by
  intro db' others
  exact ⟨⟨n, queued.later others⟩, ⟨n, queued.later others⟩, fun s failed => by cases failed⟩

theorem prisma_bind {α : Type} (scope' : Option Id) (q : Query) (f : q.Ans → Prog line α) :
    prisma scope' q >>= f = @Prog.sql line α ⟨scope', q⟩ fun r => Prog.uncaught r >>= f := rfl

/-- An event that is found under its id is recorded. -/
theorem found_recorded {companyId : Id} {e : LineWebhookEvent} {r : WebhookEvent}
    (found : (db.webhookEvents.rows.find? fun r =>
      Tenancy.Sees (some companyId) r.companyId ∧ r.eventId = eventIdOf e) = some r) :
    Recorded db companyId e := by
  have own := List.find?_some found
  simp only [Tenancy.Sees, Option.mem_def, Option.some.injEq, forall_eq', decide_eq_true_eq] at own
  refine ⟨r, ?_⟩
  rw [own.1, ← own.2]
  exact Table.find?_of_mem (List.mem_of_find?_eq_some found)

theorem createEvent_ok {r a : WebhookEvent} {ws : List Row}
    (ran : createEvent stores db r = .ok (ws, a)) :
    ws = [a] ∧ a = r ∧ db.webhookEvents.find? (key a) = none := by
  unfold createEvent at ran
  split at ran
  · cases ran
  · split at ran
    · cases ran
    · rename_i free
      split at ran
      · cases ran
      · cases ran
        exact ⟨rfl, rfl, by simpa using free⟩

/-- The violated index means that the event is committed. -/
theorem createEvent_duplicate {r : WebhookEvent} {e : ApiError}
    (ran : createEvent stores db r = .error e) (duplicate : isWebhookEventDuplicate e = true) :
    ∃ r', db.webhookEvents.find? (key r) = some r' := by
  unfold createEvent at ran
  split at ran
  · cases ran
    cases duplicate
  · split at ran
    · exact Option.isSome_iff_exists.1 ‹_›
    · split at ran
      · cases ran
        cases duplicate
      · cases ran

theorem insert_eq {companyId : Id} {data : WebhookEvent} (f : WebhookEvent → Script line Ack)
    (h : ApiError → Prog line (Script line Ack)) :
    Prog.attempt (do let row ← prisma (some companyId) (.eventCreate data); pure (f row)) h =
      @Prog.sql line _ ⟨some companyId, .eventCreate data⟩ fun
        | .ok row => .ret (f row)
        | .error e => h e := by
  change Prog.sql _ _ = _
  congr 1
  funext r
  cases r <;> rfl

section event
variable {channel : LineChannel} {payload : LineWebhookPayload} {pre rest : List LineWebhookEvent}
  {e : LineWebhookEvent} {ack : Ack}

/-- The next event is recorded as well. -/
theorem Accepted.next
    (accepted : Accepted W first (delivery t) channel payload pre (e :: rest) db)
    (recorded : Recorded db channel.companyId e) :
    Accepted W first (delivery t) channel payload (pre ++ [e]) rest db := by
  refine ⟨accepted.known, accepted.parsed, ?_, fun e' he' => ?_⟩
  · rw [accepted.split, List.append_assoc]
    rfl
  · rcases List.mem_append.1 he' with he' | he'
    · exact accepted.recorded e' he'
    · obtain rfl := List.mem_singleton.1 he'
      exact recorded

/-- The stage after a duplicate. -/
theorem Stage.duplicate
    (accepted : Accepted W first (delivery t) channel payload pre (e :: rest) db)
    (queued : Queued (delivery t) pre.length js db) (recorded : Recorded db channel.companyId e) :
    Stage W first (delivery t) db js (eachEvent channel.companyId channel.channelId
      (delivery t).draw (pre.length + 1) (Persisted.duplicate.count ack) rest) := by
  have length : (pre ++ [e]).length = pre.length + 1 := by simp
  rw [← length]
  refine .loop channel payload (pre ++ [e]) rest _ (accepted.next recorded) ?_
  rw [length]
  exact queued.more

/-- **The transaction of an event.** -/
theorem persist_pays {p : Prog line (Script line Ack)}
    (accepted : Accepted W first (delivery t) channel payload pre (e :: rest) db)
    (queued : Queued (delivery t) pre.length js db)
    (here : persistAndEnqueue channel.companyId channel.channelId ((delivery t).draw pre.length) e
      (fun result => eachEvent channel.companyId channel.channelId (delivery t).draw
        (pre.length + 1) (result.count ack) rest) = .tx p) :
    p.Pays (engine stores) (webhookTerms W stores first delivery) t {} js db := by
  obtain rfl := Script.tx.inj here.symm
  rw [prisma_bind]
  refine .sql rfl (fun db' others => ⟨_, queued.later others⟩)
    (fun db₁ ws existing others ran => ?_) fun db₁ e' others ran => by cases ran
  have accepted := accepted.later others
  have queued := queued.later others
  have looked : existing = db₁.webhookEvents.rows.find? fun r =>
      Tenancy.Sees (some channel.companyId) r.companyId ∧ r.eventId = eventIdOf e := by
    cases ran
    rfl
  obtain rfl : ws = [] := by
    cases ran
    rfl
  cases existing with
  | some r => exact pays_stage (.duplicate accepted queued (found_recorded looked.symm)) rfl
  | none =>
    rw [Prog.uncaught_ok, Prog.bind_ret, insert_eq]
    refine .sql rfl (fun db' others => ⟨_, queued.later others⟩) (fun db₂ ws row others ran => ?_)
      fun db₂ err others ran => ?_
    · obtain ⟨rfl, own, free⟩ := createEvent_ok ran
      -- The entry of the index is held until the COMMIT.
      intro db₃ others'
      have free := Log.free_later (l := eventLog stores) (List.mem_singleton_self _) others' free
      have queued := (queued.later others).later others'
      refine ⟨⟨_, queued⟩, ⟨_, queued⟩, ?_⟩
      rintro s ⟨⟩
      have inserts : (eventLog stores).Inserts db₃ [row] := .inr ⟨row, rfl, free⟩
      have written : Interferes (engine stores) (eventLog stores).Inserts [] db₃
          ([row].foldl Row.apply db₃) := .commit _ .refl inserts fun _ _ => List.not_mem_nil
      have stored : (Row.apply db₃ row).webhookEvents.find? (key row) = some row :=
        Table.find?_put_self _ _
      refine ⟨inserts, .enqueue channel payload pre rest e ack row ?_ (queued.later written)
        (Table.find?_mem stored) (congrArg WebhookEvent.id own)⟩
      have keys : key row = (channel.companyId, eventIdOf e) := congrArg key own
      rw [keys] at stored
      exact (((accepted.later others).later others').later written).next ⟨_, stored⟩
    · have accepted := accepted.later others
      have queued := queued.later others
      simp only
      split
      · rename_i duplicate
        exact pays_stage (.duplicate accepted queued (createEvent_duplicate ran duplicate)) rfl
      · exact pays_throw queued

end event

/-- The transaction of the job. -/
theorem enqueue_pays {channel : LineChannel} {payload : LineWebhookPayload}
    {pre rest : List LineWebhookEvent} {e : LineWebhookEvent} {ack : Ack} {r : WebhookEvent}
    (accepted : Accepted W first (delivery t) channel payload (pre ++ [e]) rest db)
    (queued : Queued (delivery t) pre.length js db) (stored : r ∈ db.webhookEvents.rows)
    (drawn : r.id = (delivery t).draw pre.length) :
    (Prog.send (eventJob r) fun _ => .ret (eachEvent channel.companyId channel.channelId
      (delivery t).draw (pre.length + 1) (Persisted.enqueued.count ack) rest)).Pays (engine stores)
        (webhookTerms W stores first delivery) t {} js db := by
  have length : (pre ++ [e]).length = pre.length + 1 := by simp
  intro db' others
  have accepted := accepted.later others
  have queued := queued.later others
  have stored := rows_later others stored
  have added : Queued (delivery t) (pre.length + 1) (js ++ [eventJob r]) db' := by
    refine ⟨?_, fun j hj => ?_⟩
    · rw [List.map_append, List.range_succ, List.map_append, List.map_singleton,
        List.map_singleton]
      change List.Sublist (_ ++ [r.id]) _
      rw [drawn]
      exact queued.1.append (List.Sublist.refl _)
    · rcases List.mem_append.1 hj with hj | hj
      · exact queued.2 j hj
      · exact ⟨r, stored, List.mem_singleton.1 hj⟩
  refine ⟨⟨_, queued⟩, pays_stage ?_ rfl, pays_stage ?_ rfl⟩
  · rw [← length]
    exact .loop channel payload (pre ++ [e]) rest _ accepted (length ▸ added)
  · rw [← length]
    exact .loop channel payload (pre ++ [e]) rest _ accepted (length ▸ queued.more)

/-- A delivery that is accepted starts with its first event. -/
theorem accept_stage {channel : LineChannel}
    (known : first.channelBySlug? (delivery t).companySlug = some channel) :
    Stage W first (delivery t) db [] (acceptDelivery W (delivery t) channel) := by
  unfold acceptDelivery
  split
  · split
    · exact .refused _ rfl
    · split
      · exact .refused _ rfl
      · split
        · exact .refused _ rfl
        · rename_i payload parsed
          exact .loop channel payload [] payload.events ⟨0, 0⟩
            ⟨known, parsed, rfl, fun e he => by cases he⟩
            ⟨List.Sublist.refl _, fun j hj => by cases hj⟩
  · exact .refused _ rfl

/-- The transaction of the channel. -/
theorem handle_pays {p : Prog line (Script line Ack)} (same : db.setup = first.setup)
    (here : handleWebhook W (delivery t) = .tx p) :
    p.Pays (engine stores) (webhookTerms W stores first delivery) t {} [] db := by
  obtain rfl := Script.tx.inj here.symm
  have empty : ∀ db, Queued (delivery t) 0 [] db := fun db =>
    ⟨List.Sublist.refl _, fun j hj => by cases hj⟩
  have refused : ∀ {x : Session line} {db : Db}, x.writes = [] →
      (Prog.ret (.done (.error (channelNotConfigured (delivery t).companySlug)))).Pays
        (engine stores) (webhookTerms W stores first delivery) t x [] db :=
    fun nothing => pays_stage (.refused _ rfl) nothing
  unfold findByCompanySlugUnscoped
  rw [Prog.bind_assoc, prisma_bind]
  refine .sql rfl (fun db' others => ⟨0, empty db'⟩) (fun db₁ ws company others ran => ?_)
    fun db₁ e others ran => by cases ran
  have same := (setup_later others).trans same
  have looked : company = (db₁.companies.rows.find? fun c =>
      c.slug = (delivery t).companySlug).map fun c => (c.id, db₁.companyStatus c.id) := by
    cases ran
    rfl
  obtain rfl : ws = [] := by
    cases ran
    rfl
  rw [Prog.uncaught_ok, Prog.bind_ret]
  cases company with
  | none => exact refused rfl
  | some found =>
    obtain ⟨c, known, rfl⟩ := Option.map_eq_some_iff.1 looked.symm
    simp only
    split
    · exact refused rfl
    · rename_i active
      rw [prisma_bind]
      refine .sql rfl (fun db' others => ⟨0, empty db'⟩) (fun db₂ ws channel others ran => ?_)
        fun db₂ e others ran => by cases ran
      have same' := (setup_later others).trans same
      have looked' : channel = db₂.channels.rows.find? fun h => h.companyId = c.id := by
        cases ran
        rfl
      obtain rfl : ws = [] := by
        cases ran
        rfl
      rw [Prog.uncaught_ok, Prog.bind_ret]
      cases channel with
      | none => exact refused rfl
      | some channel =>
        refine pays_stage (accept_stage ?_) rfl
        simp only [Db.setup, Prod.mk.injEq] at same same'
        rw [Db.channelBySlug?, ← same.1, ← same.2.1, known, looked', same'.2.2]
        simp [Option.filter, not_not.1 active]

/-- Each transaction of a delivery pays what it owes. -/
theorem stage_pays {s : Script line Ack} (stage : Stage W first (delivery t) db js s)
    {p : Prog line (Script line Ack)} (here : s = .tx p) :
    p.Pays (engine stores) (webhookTerms W stores first delivery) t {} js db := by
  cases stage with
  | start same none =>
    subst none
    exact handle_pays same here
  | refused e none => cases here
  | loop channel payload pre rest ack accepted queued =>
    cases rest with
    | nil => cases here
    | cons e rest => exact persist_pays accepted queued here
  | enqueue channel payload pre rest e ack r accepted queued stored drawn =>
    obtain rfl := Script.tx.inj here.symm
    exact enqueue_pays accepted queued stored drawn

theorem webhookTerms_hands [DecidableEq ι] :
    (webhookTerms W stores first delivery).Hands (engine stores) fun t s js db =>
      Stage W first (delivery t) db js s where
  ends _ s _ _ _ ends := ends.2 s rfl
  free _ _ := ⟨fun _ _ _ => trivial, fun _ _ _ _ _ => trivial⟩

end transactions

/-! ## Every interleaving -/

/-- A call that has returned has a committed row for each of its events. -/
def Handled (W : Webhook) (first : Db) (delivery : Delivery) (db : Db) : Prop :=
  ∃ channel payload, first.channelBySlug? delivery.companySlug = some channel ∧
    W.parse delivery.rawBody = .ok payload ∧
    ∀ e ∈ payload.events, Recorded db channel.companyId e

section runs
variable {ι : Type} [DecidableEq ι] {W : Webhook} {stores : WebhookEvent → Bool} {first : Db}
  {delivery : ι → Delivery} {c : Config line ι (Script line Ack)}

/-- The jobs of a call, at any point of the run. -/
theorem queued_now (paid : Paid (engine stores) (webhookTerms W stores first delivery) first c)
    (t : ι) : ∃ n, Queued (delivery t) n (c.jobsOf t) c.db := by
  have pays := paid.pays t
  cases tx : c.txs t with
  | running p x =>
    rw [tx] at pays
    exact pays.2.holds
  | committed a =>
    rw [tx] at pays
    obtain ⟨x, db, ends, sound, since⟩ := pays
    obtain ⟨-, stage⟩ := (by simpa [sound] using ends.2 a rfl :
      (eventLog stores).Inserts db x.writes ∧ Stage W first (delivery t) (x.view (engine stores) db)
        (c.jobsOf t) a)
    exact (stage.later since).queued
  | rolledBack r =>
    rw [tx] at pays
    obtain ⟨x, db, ⟨⟨n, queued⟩, -⟩, -, since⟩ := pays
    exact ⟨n, queued.later since⟩
  | crashed =>
    rw [tx] at pays
    obtain ⟨x, db, ⟨n, queued⟩, -, since⟩ := pays
    exact ⟨n, queued.later since⟩

/-- Jobs of one row are one job. -/
theorem jobs_distinct (paid : Paid (engine stores) (webhookTerms W stores first delivery) first c)
    (draws : ∀ t n t' n', (delivery t).draw n = (delivery t').draw n' → t = t' ∧ n = n') :
    c.jobs.Pairwise fun j j' => j.2.webhookEventRowId ≠ j'.2.webhookEventRowId := by
  have drawn : ∀ j ∈ c.jobs, ∃ n, (delivery j.1).draw n = j.2.webhookEventRowId := by
    intro j hj
    obtain ⟨n, queued⟩ := queued_now paid j.1
    have mem : j.2 ∈ c.jobsOf j.1 :=
      List.mem_map_of_mem (List.mem_filter.2 ⟨hj, decide_eq_true rfl⟩)
    obtain ⟨i, -, same⟩ := List.mem_map.1 (queued.1.subset (List.mem_map_of_mem mem))
    exact ⟨i, same⟩
  -- The jobs of one request are of different rows.
  have own : ∀ t, c.jobs.Pairwise fun j j' => decide (j.1 = t) = true → decide (j'.1 = t) = true →
      j.2.webhookEventRowId ≠ j'.2.webhookEventRowId := by
    intro t
    obtain ⟨n, queued⟩ := queued_now paid t
    have nodup : ((List.range n).map (delivery t).draw).Nodup :=
      List.nodup_range.map fun i i' same => (draws t i t i' same).2
    have rows := nodup.sublist queued.1
    rw [Config.jobsOf, List.map_map] at rows
    exact List.pairwise_filter.1 (List.pairwise_map.1 rows)
  rw [List.pairwise_iff_getElem]
  intro i j hi hj lt same
  obtain ⟨n, hn⟩ := drawn _ (List.getElem_mem hi)
  obtain ⟨m, hm⟩ := drawn _ (List.getElem_mem hj)
  have owner := (draws _ n _ m ((hn.trans same).trans hm.symm)).1
  exact List.pairwise_iff_getElem.1 (own (c.jobs[i]).1) i j hi hj lt (decide_eq_true rfl)
    (decide_eq_true owner.symm) same

/-- The row of a job. -/
theorem job_row (paid : Paid (engine stores) (webhookTerms W stores first delivery) first c)
    {j : ι × LineEventJob} (hj : j ∈ c.jobs) :
    ∃ r ∈ c.db.webhookEvents.rows, j.2 = eventJob r := by
  obtain ⟨n, queued⟩ := queued_now paid j.1
  exact queued.2 j.2 (List.mem_map_of_mem (List.mem_filter.2 ⟨hj, decide_eq_true rfl⟩))

theorem Stage.handled {d : Delivery} {db : Db} {js : List LineEventJob} {s : Script line Ack}
    {ack : Ack} (stage : Stage W first d db js s) (here : s = .done (.ok ack)) :
    Handled W first d db := by
  cases stage with
  | start same none => cases here
  | refused e none => cases here
  | loop channel payload pre rest ack' accepted queued =>
    cases rest with
    | nil =>
      refine ⟨channel, payload, accepted.known, accepted.parsed, fun e he => ?_⟩
      rw [accepted.split, List.append_nil] at he
      exact accepted.recorded e he
    | cons e rest => cases here
  | enqueue channel payload pre rest e ack' r accepted queued stored drawn => cases here

/-- A call that has returned has handled its delivery. -/
theorem handled_now (paid : Paid (engine stores) (webhookTerms W stores first delivery) first c)
    {t : ι} {ack : Ack} (told : c.told t = some (.ok ack)) :
    Handled W first (delivery t) c.db := by
  have pays := paid.pays t
  cases tx : c.txs t with
  | running p x => simp [Config.told, tx, Tx.answer?] at told
  | crashed => simp [Config.told, tx, Tx.answer?] at told
  | committed s =>
    rw [tx] at pays
    obtain ⟨x, db, ends, sound, since⟩ := pays
    obtain ⟨-, stage⟩ := (by simpa [sound] using ends.2 s rfl :
      (eventLog stores).Inserts db x.writes ∧ Stage W first (delivery t) (x.view (engine stores) db)
        (c.jobsOf t) s)
    have here : s.answer? = some (.ok ack) := by
      rw [← Config.answer_committed, ← tx]
      exact told
    cases s with
    | tx p => cases here
    | done r => exact (stage.later since).handled (congrArg Script.done (Option.some.inj here))
  | rolledBack r =>
    rw [tx] at pays
    obtain ⟨x, db, ends, lost, since⟩ := pays
    cases r with
    | error e => simp [Config.told, tx, Tx.answer?] at told
    | ok s =>
      have stage : Stage W first (delivery t) db (c.jobsOf t) s := by
        simpa [lost rfl] using ends.2 s rfl
      cases s with
      | tx p => simp [Config.told, tx, Tx.answer?] at told
      | done r =>
        have here : r = .ok ack := by simpa [Config.told, tx, Tx.answer?] using told
        exact (stage.later since).handled (congrArg Script.done here)

end runs

/-- **Deduplication.** In every interleaving of deliveries, all committed states
have one row under an event id at most, at most one job is added for it, and a
call that returns has a committed row for each of its events. -/
theorem webhooks_deduplicated {ι : Type} [Fintype ι] [DecidableEq ι] (W : Webhook)
    (stores : WebhookEvent → Bool) (delivery : ι → Delivery)
    (draws : ∀ t n t' n', (delivery t).draw n = (delivery t').draw n' → t = t' ∧ n = n') (db : Db)
    (ms : List (Move ι)) (c : Config line ι (Script line Ack))
    (run : (Config.startScripts db fun t => handleWebhook W (delivery t)).moves (engine stores) ms =
      some c) :
    (∀ d ∈ c.db :: c.past, ∀ d' ∈ c.db :: c.past, ∀ r ∈ d.webhookEvents.rows,
      ∀ r' ∈ d'.webhookEvents.rows, r.companyId = r'.companyId → r.eventId = r'.eventId →
      r = r') ∧
    (c.jobs.map fun j => (j.2.companyId, j.2.eventId)).Nodup ∧
    ∀ t ack, c.told t = some (.ok ack) → Handled W db (delivery t) c.db := by
  have stable : ∀ t s js (d : Db) ws, Stage W db (delivery t) d js s →
      (eventLog stores).Inserts d ws →
      Stage W db (delivery t) (ws.foldl (engine stores).apply d) js s :=
    fun t s js d ws stage inserts =>
      stage.later (.commit ws .refl inserts fun _ _ => List.not_mem_nil)
  have begun : ∀ t, (webhookTerms W stores db delivery).ends t
      (.ok (handleWebhook W (delivery t))) {} [] db :=
    fun t => ⟨⟨0, List.Sublist.refl _, fun j hj => by cases hj⟩, fun s same => by
      cases same
      exact ⟨.inl rfl, .start rfl rfl⟩⟩
  have paid : Paid (engine stores) (webhookTerms W stores db delivery) db c :=
    Paid.run_scripts webhookTerms_hands stable
      (fun t p js d stage => stage_pays stage rfl) begun ms run
  refine ⟨?_, ?_, ?_⟩
  · intro d hd d' hd' r mem r' mem' company event
    exact Log.agree (l := eventLog stores) (paid.since hd) (paid.since hd') mem mem'
      (Prod.ext company event)
  · refine List.pairwise_map.2 ((jobs_distinct paid draws).imp_of_mem ?_)
    intro j j' hj hj' apart same
    obtain ⟨r, mem, row⟩ := job_row paid hj
    obtain ⟨r', mem', row'⟩ := job_row paid hj'
    rw [row, row'] at apart same
    have one : r = r' := c.db.webhookEvents.key_inj mem mem' same
    exact apart (one ▸ rfl)
  · intro t ack told
    exact handled_now paid told

namespace Demo

/-- A company with its channel. -/
def siamCourt : Db where
  companies := Table.put default ⟨1, "siam-court", none⟩
  channels := ⟨[⟨⟨5, 1⟩, "1656892461", "enc:secret", "enc:token"⟩], by decide⟩

/-- A follower joins, and says hello. -/
def follow : LineWebhookEvent where
  type := "follow"
  timestamp := 1767225600000
  webhookEventId := some "01H810YECXQQZ37VAXPF6H9E6T"
  source := some ⟨"\x7b\"type\":\"user\",\"userId\":\"U1\"\x7d", some "U1"⟩
  rest := ""
  named := by decide
  identified := by decide

def hello : LineWebhookEvent where
  type := "message"
  timestamp := 1767225601000
  webhookEventId := some "01H810YED8ZXR3QFK2K1HVM5J2"
  source := some ⟨"\x7b\"type\":\"user\",\"userId\":\"U1\"\x7d", some "U1"⟩
  rest := "\"message\":\x7b\"type\":\"text\",\"id\":\"1\",\"text\":\"hello\"\x7d"
  named := by decide
  identified := by decide

def batch : LineWebhookPayload := ⟨"1656892461", [follow, hello], by decide, by decide⟩

/-- The signature of a body is the secret here, and there is one body. -/
def webhook : Webhook where
  decrypt cipher := some cipher
  verifyLineSignature _ signatureHeader channelSecret := signatureHeader = some channelSecret
  parse rawBody := if rawBody = "batch" then .ok batch else .error "Unexpected token"

/-- The batch and its redelivery. -/
def redelivered (t : Fin 2) : Delivery where
  companySlug := "siam-court"
  rawBody := "batch"
  signatureHeader := some "enc:secret"
  draw n := 2 * n + t

def advances (ts : List (Fin 2)) : List (Move (Fin 2)) := ts.map fun t => .act (.advance t)

/-- Both look the first event up before one of them inserts it. -/
def overlapping : List (Move (Fin 2)) :=
  [.next 0, .next 1] ++ advances [0, 0, 0, 1, 1, 1] ++
    [.next 0, .next 1] ++ advances [0, 1, 0, 0, 1, 1] ++
    [.next 1] ++ advances [1, 1, 1] ++
    [.next 0, .next 1] ++ advances [0, 0, 1, 1] ++
    [.next 0] ++ advances [0, 0]

end Demo

/-- Each of the two calls records one event of the batch. -/
theorem webhooks_deduplicated_overlapping : ∃ c : Config line (Fin 2) (Script line Ack),
    (Config.startScripts Demo.siamCourt fun t =>
      handleWebhook Demo.webhook (Demo.redelivered t)).moves (engine fun _ => true)
        Demo.overlapping = some c ∧
    (∀ t, c.told t = some (.ok ⟨1, 1⟩)) ∧
    c.jobs.map (fun j => (j.1, j.2.eventId)) =
      [(0, "01H810YECXQQZ37VAXPF6H9E6T"), (1, "01H810YED8ZXR3QFK2K1HVM5J2")] ∧
    ∀ t ack, c.told t = some (.ok ack) →
      Handled Demo.webhook Demo.siamCourt (Demo.redelivered t) c.db := by
  have run : ∃ c ∈ (Config.startScripts Demo.siamCourt fun t =>
      handleWebhook Demo.webhook (Demo.redelivered t)).moves (engine fun _ => true)
        Demo.overlapping, (∀ t, c.told t = some (.ok ⟨1, 1⟩)) ∧
      c.jobs.map (fun j => (j.1, j.2.eventId)) =
        [(0, "01H810YECXQQZ37VAXPF6H9E6T"), (1, "01H810YED8ZXR3QFK2K1HVM5J2")] := by
    decide +kernel
  obtain ⟨c, run, told, jobs⟩ := run
  refine ⟨c, run, told, jobs, ?_⟩
  refine (webhooks_deduplicated Demo.webhook (fun _ => true) Demo.redelivered ?_ Demo.siamCourt
    Demo.overlapping c run).2.2
  intro t n t' n' same
  have same : 2 * n + t.val = 2 * n' + t'.val := same
  have index : t.val = t'.val := by omega
  exact ⟨Fin.ext index, by omega⟩

end Dormitory.Line
