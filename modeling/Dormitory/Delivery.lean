import Mathlib.Algebra.BigOperators.Group.Finset.Piecewise
import Dormitory.Broadcast
import Dormitory.LineNotificationProcessor

/-!
# Delivery counts

The jobs of one announcement, worked on by any number of workers among other
jobs and requests. A counter transaction holds the announcement's row from its
increment to its COMMIT, so the committed counters are the outcomes of the jobs
that are over, and the one that finds them complete also closes the status.
-/

namespace Dormitory.LineNotificationProcessor
open Txn

/-! ## Counting -/

/-- What a job counts as. -/
def Report.outcome : Report → Outcome
  | returned none => .delivered
  | returned (some _) | exhausted _ => .failed

def outcome? : Option (Except Failure Report) → Option Outcome
  | some (.ok report) => some report.outcome
  | _ => none

@[simp] theorem outcome?_none : outcome? none = none := rfl

@[simp] theorem outcome?_ok (report : Report) :
    outcome? (some (.ok report)) = some report.outcome := rfl

/-- The counter, and the status when it is complete. -/
def account (outcome : Outcome) (totalRecipients : Nat) (now : Instant) (r : Announcement) :
    Announcement :=
  let r := increment outcome r
  if r.deliveredCount + r.failedCount < totalRecipients then r
  else if r.status = .sending then
    { r with
      status := if r.deliveredCount > 0 then .sent else .failed
      sentAt := some now }
  else r

@[simp] theorem increment_id (outcome : Outcome) (r : Announcement) :
    (increment outcome r).id = r.id := by cases outcome <;> rfl

@[simp] theorem increment_companyId (outcome : Outcome) (r : Announcement) :
    (increment outcome r).companyId = r.companyId := by cases outcome <;> rfl

theorem account_companyId (outcome : Outcome) (totalRecipients : Nat) (now : Instant)
    (r : Announcement) : (account outcome totalRecipients now r).companyId = r.companyId := by
  unfold account
  simp only
  split
  · exact increment_companyId outcome r
  · split <;> exact increment_companyId outcome r

theorem account_open {outcome : Outcome} {totalRecipients : Nat} {now : Instant} {r : Announcement}
    (open' : (increment outcome r).deliveredCount + (increment outcome r).failedCount <
      totalRecipients) : account outcome totalRecipients now r = increment outcome r :=
  if_pos open'

theorem account_complete {outcome : Outcome} {totalRecipients : Nat} {now : Instant}
    {r : Announcement} (complete : ¬ (increment outcome r).deliveredCount +
      (increment outcome r).failedCount < totalRecipients) :
    account outcome totalRecipients now r = if (increment outcome r).status = .sending then
      { increment outcome r with
        status := if (increment outcome r).deliveredCount > 0 then .sent else .failed
        sentAt := some now }
    else increment outcome r :=
  if_neg complete

section tally
variable {ι : Type} [Fintype ι] (R : ι → Prop) [DecidablePred R]
  (told : ι → Option (Except Failure Report))

/-- The recipients that have the outcome, and those that have none yet. -/
def tally (outcome : Option Outcome) : Nat :=
  (Finset.univ.filter fun t => R t ∧ outcome? (told t) = outcome).card

/-- The counters and the status say what has become of the recipients. -/
structure Tallied (r : Announcement) : Prop where
  delivered : r.deliveredCount = tally R told (some .delivered)
  failed : r.failedCount = tally R told (some .failed)
  status : r.status = if 0 < tally R told none then .sending
    else if 0 < r.deliveredCount then .sent else .failed

theorem tally_total : tally R told (some .delivered) + tally R told (some .failed) +
    tally R told none = (Finset.univ.filter R).card := by
  have cover : ∀ t ∈ Finset.univ.filter R,
      outcome? (told t) ∈ ({some .delivered, some .failed, none} : Finset (Option Outcome)) := by
    intro t _
    rcases outcome? (told t) with _ | _ | _ <;> simp
  have parts := Finset.card_eq_sum_card_fiberwise cover
  rw [Finset.sum_insert (by decide), Finset.sum_insert (by decide), Finset.sum_singleton] at parts
  simp only [Finset.filter_filter] at parts
  unfold tally
  omega

variable {R told}

/-- Some recipient has no outcome yet. -/
theorem tally_none_pos : 0 < tally R told none ↔ ∃ t, R t ∧ outcome? (told t) = none := by
  unfold tally
  rw [Finset.card_pos]
  constructor
  · rintro ⟨t, ht⟩
    exact ⟨t, (Finset.mem_filter.1 ht).2⟩
  · rintro ⟨t, pending⟩
    exact ⟨t, Finset.mem_filter.2 ⟨Finset.mem_univ t, pending⟩⟩

/-- Nobody has an outcome. -/
theorem Tallied.start {r : Announcement} (silent : ∀ t, R t → outcome? (told t) = none)
    (some' : ∃ t, R t) (sending : r.status = .sending)
    (uncounted : r.deliveredCount = 0 ∧ r.failedCount = 0) : Tallied R told r := by
  have nobody : ∀ outcome, tally R told (some outcome) = 0 := by
    intro outcome
    refine Finset.card_eq_zero.2 (Finset.filter_eq_empty_iff.2 ?_)
    rintro t - ⟨recipient, has⟩
    rw [silent t recipient] at has
    cases has
  obtain ⟨t, recipient⟩ := some'
  refine ⟨?_, ?_, ?_⟩
  · rw [nobody, uncounted.1]
  · rw [nobody, uncounted.2]
  · rw [if_pos (tally_none_pos.2 ⟨t, recipient, silent t recipient⟩), sending]

variable [DecidableEq ι] {t : ι}

/-- The part of a recipient in a tally, and that of the others. -/
theorem tally_split (told : ι → Option (Except Failure Report)) (recipient : R t)
    (outcome : Option Outcome) :
    tally R told outcome = (if outcome? (told t) = outcome then 1 else 0) +
      ∑ u ∈ Finset.univ.erase t, if R u ∧ outcome? (told u) = outcome then 1 else 0 := by
  unfold tally
  rw [Finset.card_filter, ← Finset.add_sum_erase _ _ (Finset.mem_univ t)]
  simp only [recipient, true_and]

/-- The recipient `t`, of whom nothing was known, has an outcome now. -/
theorem tally_update (report : Report) (recipient : R t) (fresh : told t = none)
    (outcome : Option Outcome) :
    tally R (Function.update told t (some (.ok report))) outcome +
        (if outcome = none then 1 else 0) =
      tally R told outcome + if some report.outcome = outcome then 1 else 0 := by
  have others : ∑ u ∈ Finset.univ.erase t, (if R u ∧ outcome?
        (Function.update told t (some (.ok report)) u) = outcome then 1 else 0) =
      ∑ u ∈ Finset.univ.erase t, if R u ∧ outcome? (told u) = outcome then 1 else 0 := by
    refine Finset.sum_congr rfl fun u hu => ?_
    rw [Function.update_of_ne (Finset.ne_of_mem_erase hu)]
  rw [tally_split _ recipient, tally_split told recipient, others, Function.update_self, fresh]
  cases outcome with
  | none =>
    simp only [outcome?_none, outcome?_ok, reduceCtorEq, if_false, if_true]
    omega
  | some o =>
    by_cases same : report.outcome = o
    · simp [same, add_comm]
    · simp [same]

theorem tally_other (told : ι → Option (Except Failure Report))
    (x : Option (Except Failure Report)) (other : ¬ R t) (outcome : Option Outcome) :
    tally R (Function.update told t x) outcome = tally R told outcome := by
  unfold tally
  congr 1
  refine Finset.filter_congr fun u _ => and_congr_right fun recipient => ?_
  rw [Function.update_of_ne (by rintro rfl; exact other recipient)]

/-- **One more outcome.** The counter transaction keeps the account. -/
theorem Tallied.account {r : Announcement} (h : Tallied R told r) (recipient : R t)
    (fresh : told t = none) (report : Report) (now : Instant) :
    Tallied R (Function.update told t (some (.ok report)))
      (account report.outcome (Finset.univ.filter R).card now r) := by
  have sending : r.status = .sending := by
    rw [h.status, if_pos (tally_none_pos.2 ⟨t, recipient, by rw [fresh]; rfl⟩)]
  have delivered := tally_update report recipient fresh (some .delivered)
  have failed := tally_update report recipient fresh (some .failed)
  have total := tally_total R (Function.update told t (some (.ok report)))
  simp only [reduceCtorEq, if_false, Option.some.injEq] at delivered failed
  have counters : (increment report.outcome r).deliveredCount =
        tally R (Function.update told t (some (.ok report))) (some .delivered) ∧
      (increment report.outcome r).failedCount =
        tally R (Function.update told t (some (.ok report))) (some .failed) ∧
      (increment report.outcome r).status = .sending := by
    rw [← h.delivered] at delivered
    rw [← h.failed] at failed
    cases outcome : report.outcome with
    | delivered =>
      rw [outcome] at delivered failed
      exact ⟨delivered.symm, failed.symm, sending⟩
    | failed =>
      rw [outcome] at delivered failed
      exact ⟨delivered.symm, failed.symm, sending⟩
  generalize Function.update told t (some (.ok report)) = told' at counters total
  obtain ⟨delivered, failed, sending⟩ := counters
  unfold LineNotificationProcessor.account
  generalize increment report.outcome r = r' at delivered failed sending
  by_cases open' : r'.deliveredCount + r'.failedCount < (Finset.univ.filter R).card
  · rw [if_pos open']
    have pending : 0 < tally R told' none := by omega
    exact ⟨delivered, failed, by rw [if_pos pending, sending]⟩
  · rw [if_neg open', if_pos sending]
    have complete : ¬ 0 < tally R told' none := by omega
    exact ⟨delivered, failed, by rw [if_neg complete]⟩

end tally

/-! ## Transactions -/

section commits
variable {held : List Id} {db db' : Db} {ws : List Row} {id : Id}

/-- No commit removes an announcement or hands it to another company. -/
def Keeps (db : Db) (ws : List Row) : Prop :=
  ∀ id r, db.announcements.find? id = some r →
    ∃ r', (ws.foldl Row.apply db).announcements.find? id = some r' ∧ r'.companyId = r.companyId

/-- The announcement is there. -/
def Stored (companyId id : Id) (db : Db) : Prop :=
  ∃ r, db.announcements.find? id = some r ∧ r.companyId = companyId

theorem Stored.later {companyId : Id} (h : Stored companyId id db)
    (others : Interferes engine Keeps held db db') : Stored companyId id db' := by
  refine others.preserves (I := Stored companyId id) ?_ h
  rintro d ws ⟨r, found, company⟩ keeps -
  obtain ⟨r', found', same⟩ := keeps id r found
  exact ⟨r', found', same.trans company⟩

/-- Writes leave alone what they do not lock. -/
theorem announcement_apart (apart : id ∉ ws.flatMap Row.locks) :
    (ws.foldl Row.apply db).announcements.find? id = db.announcements.find? id := by
  induction ws generalizing db with
  | nil => rfl
  | cons w ws ih =>
    rw [List.flatMap_cons, List.mem_append, not_or] at apart
    rw [List.foldl_cons, ih apart.2]
    cases w with
    | announcement r =>
      have other : id ≠ r.id := by simpa [Row.locks] using apart.1
      exact Table.find?_put_ne db.announcements other
    | surroundings tenants channels => rfl

/-- A locked announcement is left alone. -/
theorem announcement_held (lock : id ∈ held) (others : Interferes engine Keeps held db db') :
    db'.announcements.find? id = db.announcements.find? id := by
  refine others.preserves
    (I := fun d : Db => d.announcements.find? id = db.announcements.find? id) ?_ rfl
  intro d ws same _ apart
  exact (announcement_apart fun mem => apart id mem lock).trans same

end commits

/-! ## What a participant does next -/

/-- A job that has not been counted: it reads, and then it is counted, which is
the last thing it does. -/
inductive Stage (job : Dormitory.Job) : Script delivery Report → Prop
  | reads (scope' : Option Id) (q : Query) (f : q.Ans → Prog delivery (Script delivery Report))
      (answers : ∀ db, ∃ a, run scope' db q = .ok ([], a)) (returns : ∀ a, ∃ s, f a = .ret s)
      (rest : ∀ a s, f a = .ret s → Stage job s) :
      Stage job (.tx (prisma scope' q >>= f))
  | counts (report : Report) (now : Instant) :
      Stage job (recordAnnouncementOutcome job report.outcome now (.done (.ok report)))

section stage
variable {job : Dormitory.Job} {k : Except Failure (Option String) → Script delivery Report}

theorem push_stage (at' : Attempt)
    (returned : ∀ skipped, k (.ok skipped) = .done (.ok (.returned skipped)))
    (thrown : ∀ e, Stage job (k (.error e))) : Stage job (push job at' k) := by
  unfold push
  rw [returned, returned]
  cases at'.push with
  | accepted => exact .counts (.returned none) at'.now
  | permanent status body => exact .counts (.returned (some "line-permanent-error")) at'.now
  | transient message => exact thrown _

theorem channel_stage (at' : Attempt)
    {f : Except Failure (Option CompanyLineChannel) → Script delivery Report}
    (thrown : ∀ e, Stage job (f (.error e))) (found : ∀ row, Stage job (f (.ok row))) :
    Stage job (findByCompanyIdUnscoped job at' f) := by
  unfold findByCompanyIdUnscoped
  cases at'.channelLookup with
  | some message => exact thrown _
  | none =>
    refine .reads none _ _ (fun db => ⟨_, rfl⟩) (fun row => ⟨_, rfl⟩) fun row s same => ?_
    cases same
    exact found row

/-- Every way through an attempt counts the job or throws. -/
theorem process_stage (at' : Attempt)
    (returned : ∀ skipped, k (.ok skipped) = .done (.ok (.returned skipped)))
    (thrown : ∀ e, Stage job (k (.error e))) : Stage job (process job at' k) := by
  have skip : ∀ reason, Stage job
      (recordAnnouncementOutcome job .failed at'.now (k (.ok (some reason)))) := by
    intro reason
    rw [returned]
    exact .counts (.returned (some reason)) at'.now
  unfold process
  cases at'.tenantLookup with
  | some message => exact thrown _
  | none =>
    refine .reads _ _ _ (fun db => ⟨_, rfl⟩) (fun tenant => ?_) fun tenant s same => ?_
    · cases tenant with
      | none => exact ⟨_, rfl⟩
      | some tenant =>
        simp only
        split
        · exact ⟨_, rfl⟩
        · split <;> exact ⟨_, rfl⟩
    · cases tenant with
      | none =>
        cases same
        exact skip "tenant-missing"
      | some tenant =>
        simp only at same
        split at same
        · cases same
          exact skip "unbound-tenant"
        · split at same
          · cases same
            exact skip "tenant-inactive"
          · cases same
            refine channel_stage at' thrown fun row => ?_
            cases row with
            | none => exact skip "channel-missing"
            | some channel => exact push_stage at' returned thrown

/-- **A job is counted once**, by the attempt that returns or after the last one
has thrown. -/
theorem work_stage (maxAttempts : Nat) (outside : Nat → Attempt) (retries attemptsMade : Nat)
    (left : attemptsMade + 1 + retries = max maxAttempts 1) :
    Stage job (work job maxAttempts outside retries attemptsMade) := by
  induction retries generalizing attemptsMade with
  | zero =>
    refine process_stage _ (fun skipped => rfl) fun e => ?_
    have exhausted : ¬ attemptsMade + 1 < maxAttempts := by omega
    simp only [onFailed, if_neg exhausted]
    exact .counts (.exhausted (attemptsMade + 1)) _
  | succ retries ih =>
    refine process_stage _ (fun skipped => rfl) fun e => ?_
    have again : attemptsMade + 1 < maxAttempts := by omega
    simp only [onFailed, if_pos again]
    exact ih (attemptsMade + 1) (by omega)

end stage

/-! ## Any number of participants -/

def Part.Announces (id : Id) : Part → Prop
  | job j _ _ => j.Announces id
  | other _ _ => False

instance (id : Id) : ∀ p : Part, Decidable (p.Announces id)
  | .job j _ _ => inferInstanceAs (Decidable (j.Announces id))
  | .other _ _ => isFalse fun h => h

/-- What `enqueueAnnouncementBroadcast` puts into each of its jobs. -/
def Part.Tells (companyId : Id) (totalRecipients : Nat) : Part → Prop
  | job (.announcement c _ _ _ _ _ total) _ _ => c = companyId ∧ total = totalRecipients
  | _ => True

section terms
variable {ι : Type} (part : ι → Part) (companyId id : Id)
  (totalRecipients : Nat)

/-- What is known of a participant between two transactions. -/
def Next (t : ι) (s : Script delivery Report) (db : Db) : Prop :=
  Stored companyId id db ∧ ((∃ report, s = .done (.ok report)) ∨
    match part t with
    | .job j _ _ => Stage j s
    | .other tenants channels => s = (Part.other tenants channels).script)

/-- What the end of a transaction does to the announcement. -/
structure Ends (t : ι) (s : Script delivery Report) (x : Session delivery) (db : Db) : Prop where
  known : Next part companyId id t s db
  sound : x.broken = false → Keeps db x.writes ∧ Next part companyId id t s (x.view engine db)
  recipient : (part t).Announces id → x.broken = false ∧
    ((s.answer? = none ∧
        (x.view engine db).announcements.find? id = db.announcements.find? id) ∨
      ∃ report now r, s = .done (.ok report) ∧ db.announcements.find? id = some r ∧
        (x.view engine db).announcements.find? id =
          some (account report.outcome totalRecipients now r))
  other : ¬ (part t).Announces id → x.broken = false →
    (x.view engine db).announcements.find? id = db.announcements.find? id

def terms : Terms delivery ι (Script delivery Report) where
  kind := Keeps
  ends t r x _ db := ∃ s, r = .ok s ∧ Ends part companyId id totalRecipients t s x db

variable {part companyId id totalRecipients} {t : ι} {s : Script delivery Report} {db db' : Db}
  {x : Session delivery}

theorem terms_leaves [DecidableEq ι] :
    (terms part companyId id totalRecipients).Leaves engine (Next part companyId id) where
  ends := by
    rintro t s x js db ⟨_, ⟨⟩, ends⟩
    cases broken : x.broken with
    | true => exact ends.known
    | false => exact ends.sound broken
  free _ _ := ⟨fun _ _ _ => trivial, fun _ _ _ _ _ => trivial⟩

/-- A transaction that left the announcements alone. -/
theorem ends_apart (sound : x.broken = false) (next : Next part companyId id t s db)
    (apart : x.writes.flatMap Row.locks = [])
    (unanswered : (part t).Announces id → s.answer? = none) :
    Ends part companyId id totalRecipients t s x db := by
  have same : ∀ id, (x.view engine db).announcements.find? id = db.announcements.find? id :=
    fun id => announcement_apart (by rw [apart]; exact List.not_mem_nil)
  refine ⟨next, fun _ => ⟨fun id r found => ⟨r, (same id).trans found, rfl⟩, ?_, next.2⟩, ?_, ?_⟩
  · obtain ⟨r, found, company⟩ := next.1
    exact ⟨r, (same id).trans found, company⟩
  · exact fun recipient => ⟨sound, .inl ⟨unanswered recipient, same id⟩⟩
  · exact fun _ _ => same id

/-- A counter transaction. -/
theorem ends_counted {announcementId : Id} {total : Nat} (now : Instant) {report : Report}
    {r : Announcement} (sound : x.broken = false) (stored : Stored companyId id db)
    (own : (part t).Announces id ↔ announcementId = id)
    (tells : (part t).Announces id → total = totalRecipients)
    (found : db.announcements.find? announcementId = some r)
    (counted : ∀ id, (x.view engine db).announcements.find? id =
      if id = announcementId then some (account report.outcome total now r)
      else db.announcements.find? id) :
    Ends part companyId id totalRecipients t (.done (.ok report)) x db := by
  have keeps : Keeps db x.writes := by
    intro id' r' found'
    by_cases same : id' = announcementId
    · subst same
      rw [found] at found'
      cases found'
      exact ⟨_, (counted id').trans (if_pos rfl), account_companyId _ _ _ _⟩
    · exact ⟨r', (counted id').trans ((if_neg same).trans found'), rfl⟩
  have later : Stored companyId id (x.view engine db) := by
    obtain ⟨r', found', company⟩ := stored
    obtain ⟨r'', found'', same⟩ := keeps id r' found'
    exact ⟨r'', found'', same.trans company⟩
  refine ⟨⟨stored, .inl ⟨report, rfl⟩⟩, fun _ => ⟨keeps, later, .inl ⟨report, rfl⟩⟩, ?_, ?_⟩
  · intro recipient
    have same := own.1 recipient
    refine ⟨sound, .inr ⟨report, now, r, rfl, same ▸ found, ?_⟩⟩
    rw [counted, if_pos same.symm, tells recipient]
  · intro foreign _
    rw [counted, if_neg fun same => foreign (own.2 same.symm)]

/-- A lookup of a job, and what it returns for the next transaction. -/
theorem pays_reads {j : Dormitory.Job} {maxAttempts : Nat} {outside : Nat → Attempt}
    (here : part t = .job j maxAttempts outside) {scope' : Option Id} {q : Query}
    {f : q.Ans → Prog delivery (Script delivery Report)} {js : List Empty}
    (stored : Stored companyId id db) (answers : ∀ db, ∃ a, run scope' db q = .ok ([], a))
    (returns : ∀ a, ∃ s, f a = .ret s) (rest : ∀ a s, f a = .ret s → Stage j s)
    (unanswered : ∀ s, (part t).Announces id → Stage j s → s.answer? = none) :
    (prisma scope' q >>= f).Pays engine (terms part companyId id totalRecipients) t {} js db := by
  refine .sql rfl (fun _ _ => trivial) (fun db₁ ws a others ran => ?_) fun db₁ e others ran => ?_
  · obtain ⟨a', read⟩ := answers db₁
    cases read.symm.trans ran
    obtain ⟨s, same⟩ := returns a
    change (f a).Pays _ _ _ _ _ _
    rw [same]
    intro db₂ others'
    have stage := rest a s same
    refine ⟨trivial, s, rfl, ends_apart rfl ⟨(stored.later others).later others', .inr ?_⟩ rfl ?_⟩
    · rw [here]
      exact stage
    · exact fun recipient => unanswered s recipient stage
  · obtain ⟨a', read⟩ := answers db₁
    cases read.symm.trans ran

theorem record_eq (c announcementId : Id) (total : Nat) (outcome : Outcome) (now : Instant)
    (k : Script delivery Report) :
    Prog.attempt
      (do
        bumpAnnouncementCounter c announcementId total outcome now
        pure k)
      (fun _ => pure k) =
    @Prog.sql delivery _ ⟨some c, .announcementIncrement announcementId outcome⟩ fun
      | .ok (deliveredCount, failedCount) =>
        if deliveredCount + failedCount < total then .ret k
        else @Prog.sql delivery _ ⟨some c, .announcementUpdateMany announcementId .sending
          (if deliveredCount > 0 then .sent else .failed) now⟩ fun _ => .ret k
      | .error _ => .ret k := by
  change Prog.sql _ _ = _
  congr 1
  funext r
  cases r with
  | error e => rfl
  | ok counts =>
    obtain ⟨deliveredCount, failedCount⟩ := counts
    change Prog.attempt
      ((if deliveredCount + failedCount < total then pure ()
        else do
          let _ ← prisma (some c) (.announcementUpdateMany announcementId .sending
            (if deliveredCount > 0 then .sent else .failed) now)
          pure ()) >>= fun _ => pure k) (fun _ => pure k) = if _ then _ else _
    split
    · rfl
    · change Prog.sql _ _ = Prog.sql _ _
      congr 1
      funext r
      cases r <;> rfl

/-- What an increment finds. -/
theorem updateAnnouncement_ok {c announcementId : Id} {outcome : Outcome} {ws : List Row}
    {counts : Nat × Nat} (ran : updateAnnouncement (some c) db announcementId outcome =
      .ok (ws, counts)) :
    ∃ r, db.announcements.find? announcementId = some r ∧ r.companyId = c ∧
      ws = [.announcement (increment outcome r)] ∧
      counts = ((increment outcome r).deliveredCount, (increment outcome r).failedCount) := by
  unfold updateAnnouncement at ran
  split at ran
  · cases ran
  · rename_i r found
    obtain ⟨stored, sees⟩ := Option.filter_eq_some_iff.1 found
    cases ran
    exact ⟨r, stored, (of_decide_eq_true sees c rfl).symm, rfl, rfl⟩

theorem updateAnnouncement_stored {c announcementId : Id} (outcome : Outcome)
    (stored : Stored c announcementId db) :
    ∃ answer, updateAnnouncement (some c) db announcementId outcome = .ok answer := by
  obtain ⟨r, found, company⟩ := stored
  have seen : announcement? (some c) db announcementId = some r := by
    refine Option.filter_eq_some_iff.2 ⟨found, decide_eq_true ?_⟩
    intro c' same
    exact (Option.some.inj same).symm.trans company.symm
  exact ⟨_, by rw [updateAnnouncement, seen]⟩

/-- The flip, after the increment of the same transaction. -/
theorem updateMany_incremented {c announcementId : Id} {r : Announcement}
    (stored : db.announcements.find? announcementId = some r) (company : r.companyId = c)
    (status : AnnouncementStatus) (now : Instant) :
    updateManyAnnouncements (some c) db announcementId .sending status now =
      if r.status = .sending then
        ([.announcement { r with status := status, sentAt := some now }], 1)
      else ([], 0) := by
  have seen : announcement? (some c) db announcementId = some r := by
    refine Option.filter_eq_some_iff.2 ⟨stored, decide_eq_true ?_⟩
    intro c' same
    exact (Option.some.inj same).symm.trans company.symm
  unfold updateManyAnnouncements
  rw [seen]
  by_cases sending : r.status = .sending
  · simp [Option.filter, sending]
  · simp [Option.filter, sending]

/-- **The counter transaction**, from its increment to its COMMIT. -/
theorem pays_counts {c announcementId : Id} {total : Nat} (report : Report) (now : Instant)
    {js : List Empty} (stored : Stored companyId id db)
    (own : (part t).Announces id ↔ announcementId = id)
    (tells : (part t).Announces id → c = companyId ∧ total = totalRecipients) :
    (Prog.attempt
      (do
        bumpAnnouncementCounter c announcementId total report.outcome now
        pure (.done (.ok report)))
      fun _ => pure (.done (.ok report))).Pays engine
        (terms part companyId id totalRecipients) t {} js db := by
  rw [record_eq]
  refine .sql rfl (fun _ _ => trivial) (fun db₁ ws counts others ran => ?_)
    fun db₁ e others ran => ?_
  · obtain ⟨r, found, company, rfl, rfl⟩ := updateAnnouncement_ok ran
    have key' : (increment report.outcome r).id = announcementId := by
      rw [increment_id]
      exact Table.find?_key found
    have locked : ∀ ws : List Row, announcementId ∈
        (.announcement (increment report.outcome r) :: ws).flatMap Row.locks := by
      intro ws
      refine List.mem_flatMap.2 ⟨_, List.mem_cons_self, ?_⟩
      rw [← key']
      exact List.mem_singleton_self _
    have put : ∀ d : Db, ∀ id', (Row.apply d (.announcement
        (increment report.outcome r))).announcements.find? id' =
          if id' = announcementId then some (increment report.outcome r)
          else d.announcements.find? id' := by
      intro d id'
      rw [← key']
      exact Table.find?_put d.announcements _ id'
    simp only
    split
    · rename_i open'
      intro db₂ others'
      have found₂ := (announcement_held (locked []) others').trans found
      refine ⟨trivial, _, rfl, ends_counted now rfl ((stored.later others).later others') own
        (fun recipient => (tells recipient).2) found₂ fun id' => ?_⟩
      rw [account_open open']
      exact put db₂ id'
    · rename_i complete
      refine .sql rfl (fun _ _ => trivial) (fun db₂ ws flipped others' ran' => ?_)
        fun db₂ e others' ran' => by cases ran'
      have flip := updateMany_incremented ((put db₂ announcementId).trans (if_pos rfl))
        ((increment_companyId report.outcome r).trans company)
        (if (increment report.outcome r).deliveredCount > 0 then .sent else .failed) now
      have ran' := flip.symm.trans (Except.ok.inj ran')
      intro db₃ others''
      have found₃ := (announcement_held (locked ws) others'').trans
        ((announcement_held (locked []) others').trans found)
      refine ⟨trivial, _, rfl, ends_counted now rfl
        (((stored.later others).later others').later others'') own
        (fun recipient => (tells recipient).2) found₃ fun id' => ?_⟩
      rw [account_complete complete]
      split at ran'
      · rename_i sending
        cases ran'
        rw [if_pos sending]
        refine (Table.find?_put _ _ id').trans ?_
        by_cases same : id' = announcementId
        · rw [if_pos same]
          exact if_pos (same.trans key'.symm)
        · rw [if_neg same]
          refine (if_neg fun own' => same (own'.trans key')).trans ?_
          exact (put db₃ id').trans (if_neg same)
      · rename_i ended
        cases ran'
        rw [if_neg ended]
        exact put db₃ id'
  · intro db₂ others'
    have unseen : ¬ (part t).Announces id := by
      intro recipient
      obtain rfl := own.1 recipient
      obtain ⟨answer, found⟩ := updateAnnouncement_stored report.outcome (stored.later others)
      rw [← (tells recipient).1] at found
      cases found.symm.trans ran
    have ends : Ends part companyId id totalRecipients t (.done (.ok report)) { broken := true }
        db₂ :=
      { known := ⟨(stored.later others).later others', .inl ⟨report, rfl⟩⟩
        sound := fun sound => by cases sound
        recipient := fun recipient => absurd recipient unseen
        other := fun _ sound => by cases sound }
    exact ⟨trivial, _, rfl, ends⟩

/-- The uncounted job of a recipient is not over. -/
theorem stage_unanswered {j : Dormitory.Job} (announces : j.Announces id) (stage : Stage j s) :
    s.answer? = none := by
  cases stage with
  | reads => rfl
  | counts report now =>
    cases j with
    | announcement => rfl
    | invoice_issued | payment_approved | payment_rejected => exact announces.elim

/-- Every transaction of a participant ends as the terms say. -/
theorem next_pays
    (tells : ∀ t, (part t).Announces id → (part t).Tells companyId totalRecipients)
    {p : Prog delivery (Script delivery Report)} {js : List Empty}
    (next : Next part companyId id t (.tx p) db) :
    p.Pays engine (terms part companyId id totalRecipients) t {} js db := by
  obtain ⟨stored, ⟨report, ended⟩ | stage⟩ := next
  · cases ended
  have tells := tells t
  cases here : part t with
  | job j maxAttempts outside =>
    rw [here] at stage tells
    have unanswered : ∀ s, (part t).Announces id → Stage j s → s.answer? = none := by
      intro s recipient
      rw [here] at recipient
      exact stage_unanswered recipient
    generalize tx : Script.tx p = s at stage
    cases stage with
    | reads scope' q f answers returns rest =>
      cases tx
      exact pays_reads here stored answers returns rest unanswered
    | counts report now =>
      cases j with
      | announcement c slug tenantId announcementId title body total =>
        cases tx
        refine pays_counts report now stored (by rw [here]; exact Iff.rfl) fun recipient => ?_
        rw [here] at recipient
        exact tells recipient
      | invoice_issued | payment_approved | payment_rejected => cases tx
  | other tenants channels =>
    rw [here] at stage
    cases stage
    refine .sql rfl (fun _ _ => trivial) (fun db₁ ws a others ran => ?_)
      fun db₁ e others ran => by cases ran
    cases ran
    intro db₂ others'
    refine ⟨trivial, _, rfl, ends_apart rfl
      ⟨(stored.later others).later others', .inl ⟨.returned none, rfl⟩⟩ rfl fun recipient => ?_⟩
    rw [here] at recipient
    exact recipient.elim

theorem script_next (stored : Stored companyId id db) :
    Next part companyId id t (part t).script db := by
  refine ⟨stored, .inr ?_⟩
  cases part t with
  | job j maxAttempts outside => exact work_stage maxAttempts outside _ 0 (by omega)
  | other tenants channels => rfl

theorem script_unanswered (recipient : (part t).Announces id) :
    (part t).script.answer? = none := by
  cases here : part t with
  | job j maxAttempts outside =>
    rw [here] at recipient
    exact stage_unanswered recipient (work_stage maxAttempts outside _ 0 (by omega))
  | other tenants channels => rfl

/-- The account of an announcement, and its jobs never end in an exception. -/
def Accounted [Fintype ι] (part : ι → Part) (id : Id) (db : Db)
    (told : ι → Option (Except Failure Report)) : Prop :=
  (∃ r, db.announcements.find? id = some r ∧
    Tallied (fun t => (part t).Announces id) told r) ∧
  ∀ t, (part t).Announces id → ∀ e, told t ≠ some (.error e)

theorem Accounted.other [Fintype ι] [DecidableEq ι] {told : ι → Option (Except Failure Report)}
    {answer : Option (Except Failure Report)} (h : Accounted part id db told)
    (foreign : ¬ (part t).Announces id)
    (same : db'.announcements.find? id = db.announcements.find? id) :
    Accounted part id db' (Function.update told t answer) := by
  obtain ⟨⟨r, found, tallied⟩, sound⟩ := h
  refine ⟨⟨r, same.trans found, ?_⟩, fun u recipient e => ?_⟩
  · have kept := tally_other (R := fun t => (part t).Announces id) told answer foreign
    constructor
    · rw [kept, tallied.delivered]
    · rw [kept, tallied.failed]
    · rw [kept, tallied.status]
  · rw [Function.update_of_ne (by rintro rfl; exact foreign recipient)]
    exact sound u recipient e

theorem Accounted.recipient [Fintype ι] [DecidableEq ι]
    {told : ι → Option (Except Failure Report)} (h : Accounted part id db told)
    (recipient : (part t).Announces id) (fresh : told t = none)
    (ends : (s.answer? = none ∧ db'.announcements.find? id = db.announcements.find? id) ∨
      ∃ report now r, s = .done (.ok report) ∧ db.announcements.find? id = some r ∧
        db'.announcements.find? id = some (account report.outcome
          (Finset.univ.filter fun t => (part t).Announces id).card now r)) :
    Accounted part id db' (Function.update told t s.answer?) := by
  obtain ⟨⟨r, found, tallied⟩, sound⟩ := h
  rcases ends with ⟨unanswered, same⟩ | ⟨report, now, r', rfl, found', counted⟩
  · rw [unanswered, ← fresh, Function.update_eq_self]
    exact ⟨⟨r, same.trans found, tallied⟩, sound⟩
  · rw [found] at found'
    cases found'
    refine ⟨⟨_, counted, tallied.account recipient fresh report now⟩, fun u recipient' e => ?_⟩
    by_cases own : u = t
    · rw [own, Function.update_self]
      exact fun failed => by cases failed
    · rw [Function.update_of_ne own]
      exact sound u recipient' e

/-- **Completion.** In every interleaving of the jobs of an announcement with
each other, with other jobs and with changes to tenants and channels, the
counters are the numbers of recipients whose job is over; the status is
`sending` as long as one is not, and says in the end whether any was delivered. -/
theorem announcement_completes [Fintype ι] [DecidableEq ι] (part : ι → Part) (db : Db)
    (a : Announcement) (stored : db.announcements.find? a.id = some a)
    (sending : a.status = .sending) (uncounted : a.deliveredCount = 0 ∧ a.failedCount = 0)
    (some' : ∃ t, (part t).Announces a.id)
    (tells : ∀ t, (part t).Announces a.id → (part t).Tells a.companyId
      (Finset.univ.filter fun t => (part t).Announces a.id).card)
    (ms : List (Move ι)) (c : Config delivery ι (Script delivery Report))
    (run : (Config.startScripts db fun t => (part t).script).moves engine ms = some c) :
    ∃ r, c.db.announcements.find? a.id = some r ∧
      r.deliveredCount = (Finset.univ.filter fun t => (part t).Announces a.id ∧
        outcome? (c.told t) = some .delivered).card ∧
      r.failedCount = (Finset.univ.filter fun t => (part t).Announces a.id ∧
        outcome? (c.told t) = some .failed).card ∧
      r.deliveredCount + r.failedCount ≤
        (Finset.univ.filter fun t => (part t).Announces a.id).card ∧
      (r.status = .sending ↔ ∃ t, (part t).Announces a.id ∧ c.told t = none) ∧
      ((∀ t, (part t).Announces a.id → c.told t ≠ none) →
        r.deliveredCount + r.failedCount =
          (Finset.univ.filter fun t => (part t).Announces a.id).card ∧
        r.status = if 0 < r.deliveredCount then .sent else .failed) := by
  have accounted : Accounted part a.id c.db c.told := by
    have there : Stored a.companyId a.id db := ⟨a, stored, rfl⟩
    refine Paid.run_told terms_leaves.hands (fun t s _ db ws next keeps => ?_)
      (fun t p js db next => next_pays tells next) (fun t => ?_) ?_ ?_ ?_ ms run
    · obtain ⟨⟨r, found, company⟩, next⟩ := next
      obtain ⟨r', found', same⟩ := keeps a.id r found
      exact ⟨⟨r', found', same.trans company⟩, next⟩
    · exact ⟨_, rfl, ends_apart rfl (script_next there) rfl script_unanswered⟩
    · refine ⟨⟨a, stored, Tallied.start (fun t recipient => ?_) some' sending uncounted⟩,
        fun t recipient e => ?_⟩
      · rw [script_unanswered recipient]
        rfl
      · change (part t).script.answer? ≠ _
        rw [script_unanswered recipient]
        exact (Option.some_ne_none _).symm
    · rintro t s x js db told ⟨_, ⟨⟩, ends⟩ sound fresh accounted
      by_cases recipient : (part t).Announces a.id
      · exact accounted.recipient recipient fresh (ends.recipient recipient).2
      · exact accounted.other recipient (ends.other recipient sound)
    · rintro t r x js db told ⟨s, rfl, ends⟩ broken fresh accounted
      have foreign : ¬ (part t).Announces a.id := by
        intro recipient
        have sound := (ends.recipient recipient).1
        rw [broken rfl] at sound
        cases sound
      exact accounted.other foreign rfl
  obtain ⟨⟨r, found, tallied⟩, sound⟩ := accounted
  have total := tally_total (fun t => (part t).Announces a.id) c.told
  have open' : 0 < tally (fun t => (part t).Announces a.id) c.told none ↔
      ∃ t, (part t).Announces a.id ∧ c.told t = none := by
    refine tally_none_pos.trans (exists_congr fun t => and_congr_right fun recipient => ?_)
    cases told : c.told t with
    | none => exact iff_of_true rfl rfl
    | some answer =>
      cases answer with
      | ok report => exact iff_of_false (by simp) (by simp)
      | error e => exact absurd told (sound t recipient e)
  have delivered := tallied.delivered
  have failed := tallied.failed
  have status := tallied.status
  refine ⟨r, found, delivered, failed, by omega, ?_, fun ended => ?_⟩
  · rw [← open', status]
    by_cases pending : 0 < tally (fun t => (part t).Announces a.id) c.told none
    · exact iff_of_true (if_pos pending) pending
    · rw [if_neg pending]
      refine iff_of_false ?_ pending
      split <;> simp
  · have complete : ¬ 0 < tally (fun t => (part t).Announces a.id) c.told none := by
      intro pending
      obtain ⟨t, recipient, silent⟩ := open'.1 pending
      exact ended t recipient silent
    rw [if_neg complete] at status
    exact ⟨by omega, status⟩

end terms

namespace Demo

def sending : Announcement where
  id := 50
  companyId := 1
  title := "hello"
  body := "water off at noon"
  target := .all
  status := .sending
  scheduledAt := none
  sentAt := none
  deliveredCount := 0
  failedCount := 0
  createdByUserId := 7
  idempotencyKey := "key-of-a-broadcast"

def broadcast : Db := { Dormitory.Demo.db [] [] with announcements := Table.put default sending }

/-- Two recipients; LINE takes the message of one of them, and the second attempt
for the other one comes after the channel was removed. -/
def parts (t : Fin 3) : Part :=
  match t with
  | 0 => .job (.announcement 1 "acme" 11 50 "hello" "water off at noon" 2) 3
    fun _ => { push := .accepted, now := 10 }
  | 1 => .job (.announcement 1 "acme" 12 50 "hello" "water off at noon" 2) 3
    fun _ => { push := .transient "timeout", now := 20 }
  | 2 => .other broadcast.tenants default

/-- A transaction of one statement, or of `n`. -/
def turn (t : Fin 3) (n : Nat) : List (Move (Fin 3)) :=
  .next t :: List.replicate (n + 1) (.act (.advance t))

/-- Both jobs are at their push, then the channel goes. -/
def workers : List (Move (Fin 3)) :=
  turn 0 1 ++ turn 1 1 ++ turn 1 1 ++ turn 0 1 ++ turn 2 1 ++ turn 1 1 ++ turn 1 1 ++
    turn 0 1 ++ turn 1 2

end Demo

/-- The first recipient is delivered to and counted before the second one. -/
theorem announcement_completes_removed_channel :
    ∃ c, (Config.startScripts Demo.broadcast fun t => (Demo.parts t).script).moves engine
        Demo.workers = some c ∧
      ∃ r, c.db.announcements.find? 50 = some r ∧ r.deliveredCount + r.failedCount = 2 ∧
        r.status = if 0 < r.deliveredCount then .sent else .failed := by
  have ran : ∃ c ∈ (Config.startScripts Demo.broadcast fun t =>
      (Demo.parts t).script).moves engine Demo.workers,
      ∀ t, (Demo.parts t).Announces 50 → c.told t ≠ none := by decide +kernel
  obtain ⟨c, run, ended⟩ := ran
  obtain ⟨r, found, -, -, -, -, ends⟩ := announcement_completes Demo.parts Demo.broadcast
    Demo.sending (by decide) rfl ⟨rfl, rfl⟩ ⟨0, rfl⟩
    (fun | 0 | 1 => fun _ => ⟨rfl, by decide⟩ | 2 => fun h => h.elim) Demo.workers c run
  obtain ⟨total, status⟩ := ends ended
  exact ⟨c, run, r, found, total, status⟩

end Dormitory.LineNotificationProcessor
