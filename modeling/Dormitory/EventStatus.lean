import Dormitory.LineEventProcessor
import Dormitory.WebhookDedup

/-!
# The status of an event

All attempts at the job of an event, its listeners landing at any time. A
`PermanentJobError` is an ordinary error to the queue, so the job is taken up
again after it, and `process` does not look for a `failed` row.
-/

namespace Dormitory.LineEventProcessor
open Txn Line

abbrev JobWorker := Worker worker Unit Noted
abbrev JobMove := Worker.Move worker Attempt Listening

section
variable (job : LineEventJob)

def step (w : JobWorker) (m : JobMove) : JobWorker := w.next engine (processor job) m

def status (w : JobWorker) : Option WebhookEventStatus :=
  ((processor job).own w.db).map WebhookEvent.status

def Ended (w : JobWorker) : Prop :=
  status job w = some .processed ∨ status job w = some .failed

/-- Pending, until it is processed or failed for good; and then the handler is
left alone. -/
def StatusTerminal (w : JobWorker) (ms : List JobMove) : Prop :=
  ∀ ms₁ ms₂ ms₃, ms = ms₁ ++ ms₂ ++ ms₃ →
    let now := ms₁.foldl (step job) w
    let later := ms₂.foldl (step job) now
    (status job now = some .pending ∨ Ended job now) ∧
    (Ended job now → status job later = status job now ∧ later.calls = now.calls)

def CallsHandler (w : JobWorker) (m : JobMove) : Prop := (step job w m).calls ≠ w.calls

/-- An attempt calls the handler only if no earlier one has failed for good, as
far as the row is concerned. -/
def Spared (w : JobWorker) (m : JobMove) : Prop :=
  CallsHandler job w m → ∀ f ∈ w.failures, f.1.isPermanent = true → f.2 = .done (.ok .dropped)

/-- The listeners are through before an attempt calls the handler. -/
def Prompt (w : JobWorker) (m : JobMove) : Prop :=
  CallsHandler job w m → ∀ f ∈ w.failures, ∃ noted, f.2 = .done (.ok noted)

end

/-! ## What a transaction does -/

section transactions
variable {job : LineEventJob} {attempt : Attempt} {db : Line.Db} {r : WebhookEvent}
  {event : LineWebhookEvent} {channel : LineChannel}

/-- The row of the job, once it is updated. -/
theorem own_update (data : EventUpdate) (found : (processor job).own db = some r) :
    (processor job).own (Line.Row.apply db (data.apply r)) = some (data.apply r) := by
  have mem : r ∈ db.webhookEvents.rows := List.mem_of_find?_eq_some found
  have there : db.webhookEvents.find? (key (data.apply r)) = some r := Table.find?_of_mem mem
  refine (Table.find?_rows_put db.webhookEvents there _ rfl).trans ?_
  rw [show db.webhookEvents.rows.find? _ = some r from found]
  simp [EventUpdate.apply]

theorem update_exec (data : EventUpdate) (found : (processor job).own db = some r) :
    engine.exec ⟨some job.companyId, .webhookEventUpdate job.webhookEventRowId data⟩ db =
      .ok ([data.apply r], ()) := by
  change webhookEvent? (some job.companyId) db job.webhookEventRowId = some r at found
  simp only [engine, LineEventProcessor.run, found]

theorem process_gives (found : (processor job).own db = some r) (up : attempt.hydrate = none) :
    ∃ p s, process job attempt = .tx p ∧ p.Gives engine db 0 {} s db [] ∧
      ((∃ answer, s = .done answer) ∨ ∃ event, s = dispatch job attempt event) := by
  change webhookEvent? (some job.companyId) db job.webhookEventRowId = some r at found
  have read : engine.exec ⟨some job.companyId, .webhookEventFindUnique job.webhookEventRowId⟩ db =
      .ok ([], some (r.payload, r.status)) := by
    simp only [engine, LineEventProcessor.run, found, Option.map_some]
  unfold process
  rw [up]
  by_cases processed : r.status = .processed
  · refine ⟨_, .done (.ok ()), rfl, .query rfl read ?_, .inl ⟨_, rfl⟩⟩
    simp only [if_pos processed]
    exact .ret rfl
  · cases parsed : attempt.parse r.payload with
    | error message =>
      refine ⟨_, .done (.error (payloadInvalid job message)), rfl, .query rfl read ?_,
        .inl ⟨_, rfl⟩⟩
      simp only [if_neg processed, parsed]
      exact .ret rfl
    | ok event =>
      refine ⟨_, dispatch job attempt event, rfl, .query rfl read ?_, .inr ⟨event, rfl⟩⟩
      simp only [if_neg processed, parsed]
      exact .ret rfl

theorem dispatch_gives (job : LineEventJob) (event : LineWebhookEvent)
    (up : attempt.channelLookup = none) :
    ∃ p s, dispatch job attempt event = .tx p ∧ p.Gives engine db 0 {} s db [] ∧
      ((∃ err, s = .done (.error err)) ∨ ∃ channel, s = handle job attempt event channel) := by
  unfold dispatch findByCompanyIdUnscoped
  rw [up]
  have read : engine.exec ⟨none, .companyLineChannelFindUnique job.companyId⟩ db = .ok ([],
      db.channels.rows.find? fun c =>
        Tenancy.Sees none c.companyId ∧ c.companyId = job.companyId) := rfl
  cases found : db.channels.rows.find? fun c =>
      Tenancy.Sees none c.companyId ∧ c.companyId = job.companyId with
  | none =>
    rw [found] at read
    exact ⟨_, _, rfl, .query rfl read (.ret rfl), .inl ⟨_, rfl⟩⟩
  | some row =>
    rw [found] at read
    cases secret : attempt.decrypt row.channelSecret with
    | none =>
      refine ⟨_, .done (.error (undecryptable job.companyId)), rfl, .query rfl read ?_,
        .inl ⟨_, rfl⟩⟩
      simp only [secret]
      exact .ret rfl
    | some channelSecret =>
      cases token : attempt.decrypt row.channelAccessToken with
      | none =>
        refine ⟨_, .done (.error (undecryptable job.companyId)), rfl, .query rfl read ?_,
          .inl ⟨_, rfl⟩⟩
        simp only [secret, token]
        exact .ret rfl
      | some channelAccessToken =>
        by_cases empty : channelSecret = "" ∨ channelAccessToken = ""
        · refine ⟨_, .done (.error (undecryptable job.companyId)), rfl, .query rfl read ?_,
            .inl ⟨_, rfl⟩⟩
          simp only [secret, token, if_pos empty]
          exact .ret rfl
        · refine ⟨_, handle job attempt event { row with
            channelSecret := channelSecret, channelAccessToken := channelAccessToken }, rfl,
            .query rfl read ?_, .inr ⟨_, rfl⟩⟩
          simp only [secret, token, if_neg empty]
          exact .ret rfl

theorem handle_gives (job : LineEventJob) (attempt : Attempt) (event : LineWebhookEvent)
    (channel : LineChannel) (db : Line.Db) : ∃ p s, handle job attempt event channel = .tx p ∧
    p.Gives engine db 0 {} s db [⟨event, channel⟩] ∧
    ((∃ err, s = .done (.error err)) ∨ s = markProcessed job attempt) := by
  cases answer : attempt.handle with
  | some message =>
    refine ⟨_, .done (.error (.error message)), rfl, .send ?_, .inl ⟨_, rfl⟩⟩
    rw [answer]
    exact .ret rfl
  | none =>
    refine ⟨_, markProcessed job attempt, rfl, .send ?_, .inr rfl⟩
    rw [answer]
    exact .ret rfl

theorem markProcessed_gives (found : (processor job).own db = some r)
    (up : attempt.markProcessed = none) :
    ∃ p db', markProcessed job attempt = .tx p ∧ p.Gives engine db 0 {} (.done (.ok ())) db' [] ∧
      ∃ r', (processor job).own db' = some r' ∧ r'.status = .processed := by
  unfold markProcessed
  rw [up]
  exact ⟨_, _, rfl, .query rfl (update_exec _ found) (.ret rfl), _, own_update _ found, rfl⟩

theorem markFailed_gives {outside : Listening} (err : JobError) (attemptsMade : Nat)
    (found : (processor job).own db = some r) (up : outside.markFailed = none) :
    ∃ p db', markFailed job outside err attemptsMade = .tx p ∧
      p.Gives engine db 0 {} (.done (.ok .recorded)) db' [] ∧
      ∃ r', (processor job).own db' = some r' ∧ r'.status = .failed := by
  unfold markFailed
  rw [up]
  exact ⟨_, _, rfl, .sql rfl (update_exec _ found) (.ret rfl), _, own_update _ found, rfl⟩

end transactions

/-! ## Where a job stands -/

section invariant
variable {job : LineEventJob} {w : JobWorker}

/-- No failure is on the row, or on its way to it. -/
def Quiet (failures : List (JobError × Script worker Noted)) : Prop :=
  ∀ f ∈ failures, f.2 = .done (.ok .dropped) ∨ f.2 = .done (.ok .ignored)

/-- Where an attempt stands. The row is not marked while a failure may be. -/
inductive Stage (job : LineEventJob) (failures : List (JobError × Script worker Noted)) :
    Script worker Unit → Prop
  | process (attempt : Attempt) : Stage job failures (process job attempt)
  | dispatch (attempt : Attempt) (event : LineWebhookEvent) :
      Stage job failures (dispatch job attempt event)
  | handle (attempt : Attempt) (event : LineWebhookEvent) (channel : LineChannel) :
      Stage job failures (handle job attempt event channel)
  | markProcessed (attempt : Attempt) (quiet : Quiet failures) :
      Stage job failures (markProcessed job attempt)
  | done (answer : Except JobError Unit) : Stage job failures (.done answer)

/-- Where a listener stands after `attemptsMade` attempts. -/
inductive Listens (job : LineEventJob) (attemptsMade : Nat) : JobError × Script worker Noted → Prop
  | waiting (err : JobError) (outside : Listening) (made : Nat)
      (terminal : err.isPermanent = true ∨ job.attempts ≤ attemptsMade) :
      Listens job attemptsMade (err, markFailed job outside err made)
  | recorded (err : JobError) (terminal : err.isPermanent = true ∨ job.attempts ≤ attemptsMade) :
      Listens job attemptsMade (err, .done (.ok .recorded))
  | dropped (err : JobError) : Listens job attemptsMade (err, .done (.ok .dropped))
  | ignored (err : JobError) (transient : err.isPermanent = false) :
      Listens job attemptsMade (err, .done (.ok .ignored))

/-- What holds of a job whose attempts were all spared. -/
structure Inv (job : LineEventJob) (w : JobWorker) : Prop where
  row : status job w = some .pending ∨ Ended job w
  running : ∀ s, w.running = some s →
    Stage job w.failures s ∧ w.returned = false ∧ w.attemptsMade < job.attempts
  listens : ∀ f ∈ w.failures, Listens job w.attemptsMade f
  processed : status job w = some .processed →
    Quiet w.failures ∧ (w.returned = true ∨ w.running = some (.done (.ok ())))
  failed : status job w = some .failed ↔ ∃ f ∈ w.failures, f.2 = .done (.ok .recorded)

/-- A move leaves an event that has ended as it is. -/
def Keeps (job : LineEventJob) (w w' : JobWorker) : Prop :=
  Ended job w → status job w' = status job w ∧ w'.calls = w.calls

/-- Before its last attempt, a spared job is quiet. -/
theorem Inv.quiet (inv : Inv job w) {s : Script worker Unit} (here : w.running = some s)
    (spared : ∀ f ∈ w.failures, f.1.isPermanent = true → f.2 = .done (.ok .dropped)) :
    Quiet w.failures := by
  have more := (inv.running s here).2.2
  intro f mem
  cases inv.listens f mem with
  | waiting err outside made terminal =>
    rcases terminal with permanent | exhausted
    · exact .inl (spared _ mem permanent)
    · omega
  | recorded err terminal =>
    rcases terminal with permanent | exhausted
    · exact .inl (spared _ mem permanent)
    · omega
  | dropped err => exact .inl rfl
  | ignored err transient => exact .inr rfl

/-- A job whose failures are quiet has not failed. -/
theorem Inv.not_failed (inv : Inv job w) (quiet : Quiet w.failures) :
    status job w ≠ some .failed := by
  intro failed
  obtain ⟨f, mem, recorded⟩ := inv.failed.1 failed
  rcases quiet f mem with dropped | ignored
  · simp [recorded] at dropped
  · simp [recorded] at ignored

/-- A move that nothing comes of. -/
theorem Inv.stays (inv : Inv job w) {m : JobMove} (next : step job w m = w) :
    Inv job (step job w m) ∧ Keeps job w (step job w m) := by
  rw [next]
  exact ⟨inv, fun _ => ⟨rfl, rfl⟩⟩

theorem Inv.start (inv : Inv job w) (attempt : Attempt) :
    Inv job (step job w (.start attempt)) ∧ Keeps job w (step job w (.start attempt)) := by
  by_cases ready : w.running.isNone ∧ w.returned = false ∧ w.attemptsMade < job.attempts
  · have next : step job w (.start attempt) = { w with running := some (process job attempt) } :=
      if_pos ready
    rw [next]
    obtain ⟨idle, fresh, more⟩ := ready
    refine ⟨⟨inv.row, ?_, inv.listens, ?_, inv.failed⟩, fun _ => ⟨rfl, rfl⟩⟩
    · rintro s ⟨⟩
      exact ⟨.process attempt, fresh, more⟩
    · intro processed
      rcases (inv.processed processed).2 with returned | running
      · simp [returned] at fresh
      · simp [running] at idle
  · exact inv.stays (if_neg ready)

theorem onFailed_cases (job : LineEventJob) (outside : Listening) (err : JobError)
    (attemptsMade : Nat) :
    (err.isPermanent = false ∧ onFailed job outside err attemptsMade = .done (.ok .ignored)) ∨
    ((err.isPermanent = true ∨ job.attempts ≤ attemptsMade) ∧
      onFailed job outside err attemptsMade = markFailed job outside err attemptsMade) := by
  by_cases passing : ¬ err.isPermanent = true ∧ ¬ job.attempts ≤ attemptsMade
  · exact .inl ⟨by simpa using passing.1, if_pos passing⟩
  · refine .inr ⟨?_, if_neg passing⟩
    by_cases permanent : err.isPermanent = true
    · exact .inl permanent
    · exact .inr (not_not.1 fun more => passing ⟨permanent, more⟩)

/-- A listener that begins. -/
theorem onFailed_listens (outside : Listening) (err : JobError) (attemptsMade : Nat) :
    Listens job attemptsMade (err, onFailed job outside err attemptsMade) := by
  rcases onFailed_cases job outside err attemptsMade with
    ⟨transient, same⟩ | ⟨terminal, same⟩
  · rw [same]
    exact .ignored err transient
  · rw [same]
    exact .waiting err outside attemptsMade terminal

/-- A listener that has not run yet has nothing on the row. -/
theorem onFailed_unrecorded (outside : Listening) (err : JobError) (attemptsMade : Nat) :
    onFailed job outside err attemptsMade ≠ .done (.ok .recorded) := by
  rcases onFailed_cases job outside err attemptsMade with ⟨-, same⟩ | ⟨-, same⟩
  · simp [same]
  · rw [same, markFailed]
    cases outside.markFailed <;> simp

theorem Listens.later {attemptsMade later : Nat} {f : JobError × Script worker Noted}
    (listens : Listens job attemptsMade f) (le : attemptsMade ≤ later) : Listens job later f := by
  cases listens with
  | waiting err outside made terminal =>
    exact .waiting err outside made (terminal.imp id fun exhausted => by omega)
  | recorded err terminal => exact .recorded err (terminal.imp id fun exhausted => by omega)
  | dropped err => exact .dropped err
  | ignored err transient => exact .ignored err transient

/-- The queue takes an answer, and the listener of a failure begins. -/
theorem Inv.settle (inv : Inv job w) (outside : Listening) :
    Inv job (step job w (.settle outside)) ∧ Keeps job w (step job w (.settle outside)) := by
  cases here : w.running with
  | none => exact inv.stays (by simp [step, Worker.next, here])
  | some s =>
    obtain ⟨-, fresh, more⟩ := inv.running s here
    cases s with
    | tx p => exact inv.stays (by simp [step, Worker.next, here])
    | done answer =>
      cases answer with
      | ok u =>
        have next : step job w (.settle outside) =
            { w with running := none, returned := true } := by
          simp [step, Worker.next, here]
        rw [next]
        refine ⟨⟨inv.row, ?_, inv.listens, ?_, inv.failed⟩, fun _ => ⟨rfl, rfl⟩⟩
        · exact fun s none => by cases none
        · exact fun processed => ⟨(inv.processed processed).1, .inl rfl⟩
      | error err =>
        have next : step job w (.settle outside) = { w with
            running := none
            attemptsMade := w.attemptsMade + 1
            failures := w.failures ++ [(err, onFailed job outside err (w.attemptsMade + 1))] } := by
          simp [step, Worker.next, here, processor]
        rw [next]
        refine ⟨⟨inv.row, ?_, ?_, ?_, ?_⟩, fun _ => ⟨rfl, rfl⟩⟩
        · exact fun s none => by cases none
        · intro f mem
          rcases List.mem_append.1 mem with old | new
          · exact (inv.listens f old).later (Nat.le_succ _)
          · obtain rfl := List.mem_singleton.1 new
            exact onFailed_listens outside err _
        · intro processed
          rcases (inv.processed processed).2 with returned | running
          · simp [returned] at fresh
          · simp [here] at running
        · refine inv.failed.trans (exists_congr fun f => ?_)
          rw [List.mem_append, List.mem_singleton]
          constructor
          · rintro ⟨mem, recorded⟩
            exact ⟨.inl mem, recorded⟩
          · rintro ⟨mem | rfl, recorded⟩
            · exact ⟨mem, recorded⟩
            · exact absurd recorded (onFailed_unrecorded outside err _)

/-- An attempt that has not come to the row stands where it stood. -/
theorem Stage.restless {failures failures' : List (JobError × Script worker Noted)}
    {s : Script worker Unit} (stage : Stage job failures s) (restless : ¬ Quiet failures) :
    Stage job failures' s := by
  cases stage with
  | process attempt => exact .process attempt
  | dispatch attempt event => exact .dispatch attempt event
  | handle attempt event channel => exact .handle attempt event channel
  | markProcessed attempt quiet => exact absurd quiet restless
  | done answer => exact .done answer

theorem Inv.own (inv : Inv job w) : ∃ r, (processor job).own w.db = some r := by
  have there : (status job w).isSome := by
    rcases inv.row with pending | processed | failed
    · simp [pending]
    · simp [processed]
    · simp [failed]
  simpa [status, Option.isSome_iff_exists] using there

/-- A listener that is under way. -/
theorem Listens.waits {attemptsMade : Nat} {err : JobError}
    {p : Prog worker (Script worker Noted)} (listens : Listens job attemptsMade (err, .tx p)) :
    (err.isPermanent = true ∨ job.attempts ≤ attemptsMade) ∧
      ∃ outside made, markFailed job outside err made = .tx p ∧ outside.markFailed = none := by
  generalize same : (err, Script.tx p) = f at listens
  cases listens with
  | waiting err' outside made terminal =>
    obtain ⟨rfl, there⟩ := Prod.mk.inj same
    refine ⟨terminal, outside, made, there.symm, ?_⟩
    cases lost : outside.markFailed with
    | none => rfl
    | some message => simp [markFailed, lost] at there
  | recorded err' terminal => simp at same
  | dropped err' => simp at same
  | ignored err' transient => simp at same

/-- A listener's transaction. -/
theorem Inv.listen (inv : Inv job w) (i : Nat) :
    Inv job (step job w (.listen i)) ∧ Keeps job w (step job w (.listen i)) := by
  cases here : w.failures[i]? with
  | none => exact inv.stays (by simp [step, Worker.next, here])
  | some f =>
    obtain ⟨err, s⟩ := f
    have mem : (err, s) ∈ w.failures := List.mem_of_getElem? here
    cases s with
    | done noted => exact inv.stays (by simp [step, Worker.next, here])
    | tx p =>
      obtain ⟨terminal, outside, made, same, up⟩ := (inv.listens _ mem).waits
      obtain ⟨r, found⟩ := inv.own
      obtain ⟨p', db', same', gives, r', found', failed⟩ :=
        markFailed_gives err made found up
      obtain rfl : p' = p := Script.tx.inj (same'.symm.trans same)
      have next : step job w (.listen i) = { w with
          db := db', failures := w.failures.set i (err, .done (.ok .recorded)) } :=
        Worker.next_listen here gives
      rw [next]
      have restless : ¬ Quiet w.failures := by
        intro quiet
        rcases quiet _ mem with dropped | ignored
        · cases dropped
        · cases ignored
      have marked : status job { w with
          db := db', failures := w.failures.set i (err, .done (.ok .recorded)) } =
            some .failed := by
        rw [status, found', Option.map_some, failed]
      refine ⟨⟨.inr (.inr marked), ?_, ?_, ?_, ?_⟩, ?_⟩
      · intro s running
        obtain ⟨stage, fresh, more⟩ := inv.running s running
        exact ⟨stage.restless restless, fresh, more⟩
      · intro f mem
        rcases List.mem_or_eq_of_mem_set mem with old | rfl
        · exact inv.listens f old
        · exact .recorded err terminal
      · intro processed
        rw [marked] at processed
        cases processed
      · have inside : i < w.failures.length := (List.getElem?_eq_some_iff.1 here).1
        exact iff_of_true marked ⟨_, List.mem_set inside _, rfl⟩
      · rintro (processed | failed)
        · exact absurd (inv.processed processed).1 restless
        · exact ⟨marked.trans failed.symm, rfl⟩

/-- Other services change what is not the job's row. -/
theorem Inv.surroundings (inv : Inv job w) (db : Line.Db) :
    Inv job (step job w (.surroundings db)) ∧ Keeps job w (step job w (.surroundings db)) := by
  by_cases same : (processor job).own db = (processor job).own w.db
  · have next : step job w (.surroundings db) = { w with db := db } := if_pos same
    rw [next]
    have status_eq : status job { w with db := db } = status job w :=
      congrArg (Option.map WebhookEvent.status) same
    refine ⟨⟨?_, inv.running, inv.listens, ?_, ?_⟩, fun _ => ⟨status_eq, rfl⟩⟩
    · rw [Ended, status_eq]
      exact inv.row
    · rw [status_eq]
      exact inv.processed
    · rw [status_eq]
      exact inv.failed
  · exact inv.stays (if_neg same)

theorem Inv.advance_done (inv : Inv job w) {answer : Except JobError Unit}
    (here : w.running = some (.done answer)) :
    Inv job (step job w .advance) ∧ Keeps job w (step job w .advance) :=
  inv.stays (Worker.next_advance_done fun p running => by cases here.symm.trans running)

/-- An attempt that is under way has not come to the row. -/
theorem Inv.unprocessed (inv : Inv job w) {p : Prog worker (Script worker Unit)}
    (here : w.running = some (.tx p)) : status job w ≠ some .processed := by
  obtain ⟨-, fresh, -⟩ := inv.running _ here
  intro processed
  rcases (inv.processed processed).2 with returned | running
  · simp [returned] at fresh
  · cases here.symm.trans running

/-- A transaction that leaves the row as it is. -/
theorem Inv.moved (inv : Inv job w) {p : Prog worker (Script worker Unit)}
    {s : Script worker Unit} {calls : List Handling} (here : w.running = some (.tx p))
    (gives : p.Gives engine w.db 0 {} s w.db calls) (stage : Stage job w.failures s)
    (quiet : calls = [] ∨ Quiet w.failures) :
    Inv job (step job w .advance) ∧ Keeps job w (step job w .advance) := by
  have next : step job w .advance = { w with running := some s, calls := w.calls ++ calls } :=
    Worker.next_advance here gives
  rw [next]
  obtain ⟨-, fresh, more⟩ := inv.running _ here
  have unprocessed := inv.unprocessed here
  refine ⟨⟨inv.row, ?_, inv.listens, fun processed => absurd processed unprocessed, inv.failed⟩, ?_⟩
  · rintro s ⟨⟩
    exact ⟨stage, fresh, more⟩
  · intro ended
    refine ⟨rfl, ?_⟩
    rcases quiet with rfl | quiet
    · exact List.append_nil _
    · rcases ended with processed | failed
      · exact absurd processed unprocessed
      · exact absurd failed (inv.not_failed quiet)

/-- An attempt's transaction. -/
theorem Inv.advance (inv : Inv job w) (spared : Spared job w .advance) :
    Inv job (step job w .advance) ∧ Keeps job w (step job w .advance) := by
  cases here : w.running with
  | none =>
    exact inv.stays (Worker.next_advance_done fun p running => by cases here.symm.trans running)
  | some s =>
    obtain ⟨stage, fresh, more⟩ := inv.running s here
    obtain ⟨r, found⟩ := inv.own
    cases stage with
    | process attempt =>
      cases up : attempt.hydrate with
      | some message => exact inv.advance_done (here.trans (by rw [process, up]))
      | none =>
        obtain ⟨p, s, same, gives, ends⟩ := process_gives found up
        refine inv.moved (here.trans (congrArg some same)) gives ?_ (.inl rfl)
        rcases ends with ⟨answer, rfl⟩ | ⟨event, rfl⟩
        · exact .done answer
        · exact .dispatch attempt event
    | dispatch attempt event =>
      cases up : attempt.channelLookup with
      | some message =>
        exact inv.advance_done (here.trans (by rw [dispatch, findByCompanyIdUnscoped, up]))
      | none =>
        obtain ⟨p, s, same, gives, ends⟩ := dispatch_gives job event up
        refine inv.moved (here.trans (congrArg some same)) gives ?_ (.inl rfl)
        rcases ends with ⟨err, rfl⟩ | ⟨channel, rfl⟩
        · exact .done _
        · exact .handle attempt event channel
    | handle attempt event channel =>
      obtain ⟨p, s, same, gives, ends⟩ := handle_gives job attempt event channel w.db
      have here := here.trans (congrArg some same)
      have quiet : Quiet w.failures := by
        refine inv.quiet here (spared ?_)
        rw [CallsHandler, step, Worker.next_advance here gives]
        simp
      refine inv.moved here gives ?_ (.inr quiet)
      rcases ends with ⟨err, rfl⟩ | rfl
      · exact .done _
      · exact .markProcessed attempt quiet
    | markProcessed attempt quiet =>
      cases up : attempt.markProcessed with
      | some message => exact inv.advance_done (here.trans (by rw [markProcessed, up]))
      | none =>
        obtain ⟨p, db', same, gives, r', found', processed⟩ := markProcessed_gives found up
        have here := here.trans (congrArg some same)
        have next : step job w .advance = { w with
            db := db', running := some (.done (.ok ())), calls := w.calls ++ [] } :=
          Worker.next_advance here gives
        rw [next]
        have marked : status job { w with
            db := db', running := some (.done (.ok ())), calls := w.calls ++ [] } =
              some .processed := by
          rw [status, found', Option.map_some, processed]
        refine ⟨⟨.inr (.inl marked), ?_, inv.listens, fun _ => ⟨quiet, .inr rfl⟩, ?_⟩, ?_⟩
        · rintro s ⟨⟩
          exact ⟨.done _, fresh, more⟩
        · rw [marked]
          refine iff_of_false (by simp) ?_
          rintro ⟨f, mem, recorded⟩
          rcases quiet f mem with dropped | ignored
          · simp [recorded] at dropped
          · simp [recorded] at ignored
        · rintro (processed | failed)
          · exact absurd processed (inv.unprocessed here)
          · exact absurd failed (inv.not_failed quiet)
    | done answer => exact inv.advance_done here

/-- **Each move of a spared job.** -/
theorem Inv.step (inv : Inv job w) {m : JobMove} (spared : Spared job w m) :
    Inv job (step job w m) ∧ Keeps job w (step job w m) := by
  cases m with
  | start attempt => exact inv.start attempt
  | advance => exact inv.advance spared
  | settle outside => exact inv.settle outside
  | listen i => exact inv.listen i
  | surroundings db => exact inv.surroundings db

/-- A permanent failure is not ignored. -/
theorem Listens.transient {attemptsMade : Nat} {f : JobError × Script worker Noted}
    (listens : Listens job attemptsMade f) (ignored : f.2 = .done (.ok .ignored)) :
    f.1.isPermanent = false := by
  cases listens with
  | waiting err outside made terminal =>
    rw [markFailed] at ignored
    cases lost : outside.markFailed <;> simp [lost] at ignored
  | recorded err terminal => simp at ignored
  | dropped err => simp at ignored
  | ignored err transient => exact transient

/-- A prompt move that leaves an ended event alone was spared. -/
theorem Inv.spared (inv : Inv job w) {m : JobMove} (prompt : Prompt job w m)
    (keeps : Keeps job w (LineEventProcessor.step job w m)) : Spared job w m := by
  intro calls f mem permanent
  obtain ⟨noted, through⟩ := prompt calls f mem
  cases noted with
  | dropped => exact through
  | ignored => simp [(inv.listens f mem).transient through] at permanent
  | recorded =>
    have failed := inv.failed.2 ⟨f, mem, through⟩
    exact absurd (keeps (.inr failed)).2 calls

theorem Keeps.trans {w₁ w₂ : JobWorker} (first : Keeps job w w₁) (then' : Keeps job w₁ w₂) :
    Keeps job w w₂ := by
  intro ended
  obtain ⟨same, calls⟩ := first ended
  have still : Ended job w₁ := by
    rw [Ended, same]
    exact ended
  obtain ⟨same', calls'⟩ := then' still
  exact ⟨same'.trans same, calls'.trans calls⟩

/-- **A run of a spared job.** -/
theorem Inv.run (inv : Inv job w) {ms : List JobMove}
    (spared : Throughout (LineEventProcessor.step job) (Spared job) w ms) :
    Inv job (ms.foldl (LineEventProcessor.step job) w) ∧
      Keeps job w (ms.foldl (LineEventProcessor.step job) w) := by
  induction ms generalizing w with
  | nil => exact ⟨inv, fun _ => ⟨rfl, rfl⟩⟩
  | cons m ms ih =>
    obtain ⟨first, rest⟩ := spared
    obtain ⟨inv, keeps⟩ := inv.step first
    obtain ⟨last, keeps'⟩ := ih inv rest
    exact ⟨last, keeps.trans keeps'⟩

theorem Inv.terminal (inv : Inv job w) {ms : List JobMove}
    (spared : Throughout (LineEventProcessor.step job) (Spared job) w ms) :
    StatusTerminal job w ms := by
  rintro ms₁ ms₂ ms₃ rfl
  obtain ⟨front, -⟩ := throughout_append.1 spared
  obtain ⟨first, second⟩ := throughout_append.1 front
  obtain ⟨inv', -⟩ := inv.run first
  exact ⟨inv'.row, (inv'.run second).2⟩

/-- In a run whose listeners are prompt, a status is terminal only if the job
was spared. -/
theorem Inv.spared_run (inv : Inv job w) {ms : List JobMove}
    (prompt : Throughout (LineEventProcessor.step job) (Prompt job) w ms)
    (terminal : StatusTerminal job w ms) :
    Throughout (LineEventProcessor.step job) (Spared job) w ms := by
  induction ms generalizing w with
  | nil => trivial
  | cons m ms ih =>
    obtain ⟨first, rest⟩ := prompt
    have spared : Spared job w m := inv.spared first (terminal [] [m] ms rfl).2
    refine ⟨spared, ih (inv.step spared).1 rest ?_⟩
    rintro ms₁ ms₂ ms₃ rfl
    exact terminal (m :: ms₁) ms₂ ms₃ rfl

end invariant

/-- The job of an event that was just stored. -/
def enqueued (db : Line.Db) : JobWorker := { db := db }

theorem enqueued_inv {db : Line.Db} {r : WebhookEvent}
    (found : webhookEvent? (some r.companyId) db r.id = some r) (pending : r.status = .pending) :
    Inv (LineWebhookService.eventJob r) (enqueued db) := by
  have here : status (LineWebhookService.eventJob r) (enqueued db) = some .pending := by
    change (webhookEvent? (some r.companyId) db r.id).map WebhookEvent.status = _
    rw [found, Option.map_some, pending]
  refine ⟨.inl here, ?_, ?_, ?_, ?_⟩
  · exact fun s none => by cases none
  · exact fun f mem => by cases mem
  · intro processed
    rw [here] at processed
    cases processed
  · rw [here]
    exact iff_of_false (by simp) fun ⟨f, mem, _⟩ => by cases mem

/-- **The status of an event is terminal** in every run of its job in which no
attempt calls the handler after a permanent failure that is on the row or on its
way to it. If the listeners are prompt it is terminal in no other run. -/
theorem event_status_terminal_iff (db : Line.Db) (r : WebhookEvent)
    (found : webhookEvent? (some r.companyId) db r.id = some r) (pending : r.status = .pending)
    (ms : List JobMove) :
    let job := LineWebhookService.eventJob r
    (Throughout (step job) (Spared job) (enqueued db) ms →
      StatusTerminal job (enqueued db) ms) ∧
    (Throughout (step job) (Prompt job) (enqueued db) ms →
      (StatusTerminal job (enqueued db) ms ↔
        Throughout (step job) (Spared job) (enqueued db) ms)) := by
  have inv := enqueued_inv found pending
  exact ⟨inv.terminal, fun prompt => ⟨inv.spared_run prompt, inv.terminal⟩⟩

namespace Demo

/-- A follower has joined. -/
def joined : WebhookEvent :=
  LineWebhookService.pendingRow 1 "1656892461" 7 Line.Demo.follow

def stored : Line.Db := { Line.Demo.siamCourt with webhookEvents := ⟨[joined], by simp⟩ }

def attempt : Attempt where
  decrypt cipher := some cipher
  now := 1767225602000

/-- LINE is down at the first attempt. -/
def retried : List JobMove :=
  [.start { attempt with handle := some "fetch failed" }, .advance, .advance, .advance,
    .settle ⟨none, 1767225603000⟩, .start attempt, .advance, .advance, .advance, .advance,
    .settle ⟨none, 1767225605000⟩]

/-- The channel is gone at the first attempt. -/
def disabled : List JobMove :=
  [.surroundings { stored with channels := default }, .start attempt, .advance, .advance,
    .settle ⟨none, 1767225603000⟩, .listen 0]

/-- The row that the listener leaves. -/
def failed : WebhookEvent :=
  EventUpdate.apply
    { status := .failed
      processedAt := 1767225603000
      failure := some
        (truncateError (channelDisappeared (LineWebhookService.eventJob joined)).message, 1) }
    joined

/-- The channel is set up anew, and the second attempt finds it. -/
def enabled : List JobMove :=
  [.surroundings { stored with webhookEvents := ⟨[failed], by simp⟩ }, .start attempt, .advance,
    .advance, .advance, .advance]

end Demo

/-- After a transient error the event is processed, and that is that. -/
theorem event_status_terminal_retried :
    status (LineWebhookService.eventJob Demo.joined)
      (Demo.retried.foldl (step (LineWebhookService.eventJob Demo.joined))
        (enqueued Demo.stored)) = some .processed ∧
    StatusTerminal (LineWebhookService.eventJob Demo.joined) (enqueued Demo.stored)
      Demo.retried := by
  have transient : Throughout (step (LineWebhookService.eventJob Demo.joined))
      (fun w _ => ∀ f ∈ w.failures, f.1.isPermanent = false) (enqueued Demo.stored)
      Demo.retried := by
    decide +kernel
  refine ⟨by decide +kernel, (event_status_terminal_iff Demo.stored Demo.joined (by decide) rfl
    Demo.retried).1 ?_⟩
  refine throughout_imp (fun w m transient calls f mem permanent => ?_) transient
  simp [transient f mem] at permanent

/-- The row has failed, and the next attempt calls the handler and has it
processed. -/
theorem failed_event_processed :
    status (LineWebhookService.eventJob Demo.joined)
      (Demo.disabled.foldl (step (LineWebhookService.eventJob Demo.joined))
        (enqueued Demo.stored)) = some .failed ∧
    status (LineWebhookService.eventJob Demo.joined)
      ((Demo.disabled ++ Demo.enabled).foldl (step (LineWebhookService.eventJob Demo.joined))
        (enqueued Demo.stored)) = some .processed ∧
    ¬ StatusTerminal (LineWebhookService.eventJob Demo.joined) (enqueued Demo.stored)
      (Demo.disabled ++ Demo.enabled) := by
  have failed : status (LineWebhookService.eventJob Demo.joined)
      (Demo.disabled.foldl (step (LineWebhookService.eventJob Demo.joined))
        (enqueued Demo.stored)) = some .failed := by
    decide +kernel
  have processed : status (LineWebhookService.eventJob Demo.joined)
      ((Demo.disabled ++ Demo.enabled).foldl (step (LineWebhookService.eventJob Demo.joined))
        (enqueued Demo.stored)) = some .processed := by
    decide +kernel
  refine ⟨failed, processed, fun terminal => ?_⟩
  obtain ⟨-, keeps⟩ := terminal Demo.disabled Demo.enabled [] (List.append_nil _).symm
  have same := (keeps (.inr failed)).1
  rw [← List.foldl_append, processed, failed] at same
  cases same

end Dormitory.LineEventProcessor
