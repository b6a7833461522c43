import Dormitory.TicketHistory
import Dormitory.Txn.Rely

/-!
# Calls on one ticket at the same time

Both services read the ticket, check what they read, and write whole values back.
What the photos and the status of a ticket keep of the calls that went through,
if no COMMIT meets a ticket that has moved on since it was read.
-/

namespace Dormitory.Maintenance
open Txn MaintenanceService

/-- A call on the ticket. -/
inductive TicketCall where
  | update (ctx : Ctx) (now : Instant) (input : UpdateMaintenanceRequestInput)
  | updateForTenant (ctx : Ctx) (head : Storage) (input : TenantUpdateMaintenanceRequestInput)
    (tenantId : Id)

namespace TicketCall

def prog (id : Id) : TicketCall → Prog maintenance MaintenanceRequest
  | update ctx now input => MaintenanceService.update ctx now id input
  | updateForTenant ctx head input tenantId =>
    MaintenanceService.updateForTenant ctx head id input tenantId

def ctx : TicketCall → Ctx
  | update ctx _ _ | updateForTenant ctx _ _ _ => ctx

/-- The photos that the call adds. -/
def appended : TicketCall → List String
  | update .. => []
  | updateForTenant _ _ input _ => input.appendPhotoR2Keys.getD []

/-- The status that the call sets. -/
def moves : TicketCall → Option MaintenanceStatus
  | update _ _ input => input.status
  | updateForTenant _ _ input _ => if input.cancel then some .cancelled else none

/-- The statement that reads the ticket. -/
def reads (id : Id) : TicketCall → Statement
  | update ctx _ _ => ⟨ctx.companyId, .ticketFindUnique id⟩
  | updateForTenant ctx _ _ tenantId => ⟨ctx.companyId, .ticketFindFirst id tenantId⟩

end TicketCall

/-- `STATUS_TRANSITIONS` has no way out. -/
def terminal (status : MaintenanceStatus) : Bool := statusTransitions status = []

/-- The ticket, as it was read and as it is now, has no photo that a call that
appends neither read nor appends, and no terminal status that a call that sets
one neither read nor sets. -/
def TicketCall.Still (call : TicketCall) (old now : MaintenanceRequest) : Prop :=
  (call.appended ≠ [] → ∀ photo ∈ now.photoR2Keys,
    photo ∈ old.photoR2Keys ∨ photo ∈ call.appended) ∧
  ∀ status ∈ call.moves, terminal now.status → now.status = old.status ∨ now.status = status

instance (call : TicketCall) (old now : MaintenanceRequest) : Decidable (call.Still old now) :=
  inferInstanceAs (Decidable ((_ → ∀ photo ∈ now.photoR2Keys, _) ∧ ∀ status ∈ call.moves, _))

/-- At COMMIT the ticket has not moved on since the call has read it. -/
def Undisturbed (id : Id) (x : Session maintenance) (db : Desk) (call : TicketCall) : Prop :=
  ∀ p ∈ x.trace, (p.1 : Statement) = call.reads id →
    ∀ old ∈ ticket? call.ctx.companyId p.2 id, ∀ now ∈ db.tickets.find? id, call.Still old now

instance (id : Id) (x : Session maintenance) (db : Desk) (call : TicketCall) :
    Decidable (Undisturbed id x db call) :=
  inferInstanceAs (Decidable (∀ p ∈ x.trace, (p.1 : Statement) = call.reads id →
    ∀ old ∈ ticket? call.ctx.companyId p.2 id, ∀ now ∈ db.tickets.find? id, call.Still old now))

/-! ## What a call knows at its end -/

/-- What the calls commit: the ticket. -/
def OneTicket (id : Id) (_ : Desk) (ws : List Row) : Prop := ∃ r, ws = [.ticket r] ∧ r.id = id

/-- What the patch of a call does to the ticket it has read. -/
structure Patches (call : TicketCall) (old : MaintenanceRequest) (d : TicketPatch) : Prop where
  photos : d.photoR2Keys =
    if call.appended = [] then none else some (old.photoR2Keys ++ call.appended)
  few : call.appended ≠ [] →
    old.photoR2Keys.length + call.appended.length ≤ maintenancePhotoMax
  status : d.status = call.moves
  allowed : ∀ status ∈ call.moves, old.status = status ∨ status ∈ statusTransitions old.status

/-- Where a call may end. -/
def Outcome (id : Id) (call : TicketCall) :
    Except Failure MaintenanceRequest → Session maintenance → Desk → Prop
  | .ok _, x, db => ∃ s old d now, (call.reads id, s) ∈ x.trace ∧
    ticket? call.ctx.companyId s id = some old ∧ Patches call old d ∧
    db.tickets.find? id = some now ∧ x.writes = [.ticket (d.apply now)]
  | .error _, _, _ => True

section request
variable {S : Server} {id : Id} {held : List Lock} {db db' : Desk} {ctx : Ctx}
  {old : MaintenanceRequest} {d : TicketPatch}

theorem Patches.staff {now : Instant} {input : UpdateMaintenanceRequestInput}
    (data : updateData now old input = .ok d) : Patches (.update ctx now input) old d := by
  obtain ⟨photos, -, -, status, moves⟩ := updateData_cases data
  refine ⟨photos, fun appends => absurd rfl appends, status, fun new set => ?_⟩
  obtain ⟨stays, -⟩ | ⟨new', given, allowed, -⟩ := moves
  · cases stays.symm.trans set
  · cases given.symm.trans set
    exact allowed

theorem Patches.tenant {head : Storage} {input : TenantUpdateMaintenanceRequestInput}
    {tenantId : Id} (data : tenantData ctx tenantId head old input = .ok d) :
    Patches (.updateForTenant ctx head input tenantId) old d := by
  obtain ⟨-, cancels, appends⟩ := tenantData_cases data
  have status : d.status = if input.cancel then some .cancelled else none := by
    obtain ⟨asked, -, status, -⟩ | ⟨asked, status, -⟩ := cancels
    · rw [status, if_pos asked]
    · rw [status, asked]
      rfl
  refine ⟨?_, ?_, status, fun new set => ?_⟩
  · obtain ⟨none_given, photos⟩ | ⟨given, -, -, -, photos⟩ := appends
    · rw [photos, TicketCall.appended, if_pos none_given]
    · rw [photos, TicketCall.appended, if_neg given]
  · intro given
    obtain ⟨none_given, -⟩ | ⟨-, -, few, -⟩ := appends
    · exact absurd none_given given
    · exact few
  · obtain ⟨asked, waiting, -⟩ | ⟨asked, -⟩ := cancels
    · simp only [TicketCall.moves, asked, if_true] at set
      cases set
      exact .inr (by simp [waiting, statusTransitions])
    · simp [TicketCall.moves, asked] at set

/-- Nothing commits while the lock of the ticket is held. -/
theorem interferes_locked (locked : Lock.ticket id ∈ held)
    (others : Interferes (engine S) (OneTicket id) held db db') : db' = db := by
  refine others.preserves (I := fun s => s = db) ?_ rfl
  rintro s ws same ⟨r, rfl, id⟩ apart
  exact absurd locked (apart _ (by simp [engine, Row.locks, id]))

/-- The write at the end of a call. -/
theorem updateTicket_holds {call : TicketCall} {s : Desk} {tr : List (Statement × Desk)}
    (read : (call.reads id, s) ∈ tr) (found : ticket? call.ctx.companyId s id = some old)
    (patches : Patches call old d) :
    (prisma ctx (.ticketUpdate id d)).Holds (engine S) (OneTicket id) (Outcome id call)
      ⟨[], [], false, tr⟩ db := by
  rw [← Prog.bind_pure (prisma ctx _)]
  refine Prog.Holds.query (fun _ _ _ => trivial) fun db' ws a _ ran db'' others => ?_
  change run S ctx.companyId db' (.ticketUpdate id d) = .ok (ws, a) at ran
  simp only [run, updateTicket] at ran
  split at ran
  · cases ran
  · rename_i now here
    split at ran
    · cases ran
      obtain ⟨stored, -, -⟩ := ticket?_mem here
      have locked : Lock.ticket id ∈ [Row.ticket (d.apply now)].flatMap Row.locks := by
        simp [Row.locks, (ticket?_mem here).2.1]
      cases interferes_locked locked others
      refine ⟨s, old, d, now, List.mem_append_left _ read, found, patches, ?_, rfl⟩
      exact (Option.filter_eq_some_iff.mp here).1
    · cases ran

section rules
variable {α : Type} {call : TicketCall} {x : Session maintenance}

theorem orThrow_holds {err : Failure} {found : Option α}
    {f : α → Prog maintenance MaintenanceRequest}
    (rest : ∀ a, found = some a → (f a).Holds (engine S) (OneTicket id) (Outcome id call) x db) :
    (orThrow err found >>= f).Holds (engine S) (OneTicket id) (Outcome id call) x db := by
  cases found with
  | none => exact fun _ _ => trivial
  | some a => exact rest a rfl

theorem orRaise_holds {outcome : Except Failure α} {f : α → Prog maintenance MaintenanceRequest}
    (rest : ∀ a, outcome = .ok a → (f a).Holds (engine S) (OneTicket id) (Outcome id call) x db) :
    (orRaise outcome >>= f).Holds (engine S) (OneTicket id) (Outcome id call) x db := by
  cases outcome with
  | error err => exact fun _ _ => trivial
  | ok a => exact rest a rfl

end rules

theorem assertAssignee_holds {call : TicketCall} {assignee : Option (Option Id)}
    {f : Unit → Prog maintenance MaintenanceRequest} {tr : List (Statement × Desk)}
    (rest : ∀ db' more, (f ()).Holds (engine S) (OneTicket id) (Outcome id call)
      ⟨[], [], false, tr ++ more⟩ db') :
    (assertAssignee ctx assignee >>= f).Holds (engine S) (OneTicket id) (Outcome id call)
      ⟨[], [], false, tr⟩ db := by
  have here := rest db []
  rw [List.append_nil] at here
  rcases assignee with _ | _ | userId
  · exact here
  · exact here
  · unfold assertAssignee
    rw [Prog.bind_assoc]
    refine Prog.Holds.query (fun _ _ _ => trivial) fun db' ws user _ ran => ?_
    obtain rfl : ws = [] := by
      cases ran
      rfl
    cases user with
    | none => exact fun _ _ => trivial
    | some user => exact rest db' _

theorem update_holds (now : Instant) (input : UpdateMaintenanceRequestInput) :
    (update ctx now id input).Holds (engine S) (OneTicket id)
      (Outcome id (.update ctx now input)) {} db := by
  unfold update getById
  rw [Prog.bind_assoc]
  refine Prog.Holds.query (fun _ _ _ => trivial) fun db₁ ws a _ ran => ?_
  cases ran
  refine orThrow_holds fun old found => assertAssignee_holds fun db₂ more => ?_
  refine orRaise_holds fun d data => updateTicket_holds ?_ found (.staff data)
  exact List.mem_append_left _ List.mem_cons_self

theorem updateForTenant_holds (head : Storage) (input : TenantUpdateMaintenanceRequestInput)
    (tenantId : Id) :
    (updateForTenant ctx head id input tenantId).Holds (engine S) (OneTicket id)
      (Outcome id (.updateForTenant ctx head input tenantId)) {} db := by
  unfold updateForTenant getByIdForTenant
  rw [Prog.bind_assoc]
  refine Prog.Holds.query (fun _ _ _ => trivial) fun db₁ ws a _ ran => ?_
  cases ran
  refine orThrow_holds fun old seen => orRaise_holds fun d data => ?_
  exact updateTicket_holds List.mem_cons_self (Option.filter_eq_some_iff.mp seen).1 (.tenant data)

theorem prog_holds (S : Server) (db : Desk) (id : Id) (call : TicketCall) :
    (call.prog id).Holds (engine S) (OneTicket id) (Outcome id call) {} db := by
  cases call with
  | update ctx now input => exact update_holds now input
  | updateForTenant ctx head input tenantId => exact updateForTenant_holds head input tenantId

end request

/-! ## What a COMMIT keeps -/

/-- The ticket has its photos still, and its status if there is no way out of it. -/
def Follows (id : Id) (s s' : Desk) : Prop :=
  ∀ t ∈ s.tickets.find? id, ∃ t' ∈ s'.tickets.find? id,
    (∀ photo ∈ t.photoR2Keys, photo ∈ t'.photoR2Keys) ∧ (terminal t.status → t'.status = t.status)

theorem Follows.refl (id : Id) (s : Desk) : Follows id s s :=
  fun t ht => ⟨t, ht, fun _ here => here, fun _ => rfl⟩

theorem Follows.trans {id : Id} {s s' s'' : Desk} (first : Follows id s s')
    (second : Follows id s' s'') : Follows id s s'' := by
  intro t ht
  obtain ⟨t', ht', photos', status'⟩ := first t ht
  obtain ⟨t'', ht'', photos'', status''⟩ := second t' ht'
  refine ⟨t'', ht'', fun photo here => photos'' photo (photos' photo here), fun ends => ?_⟩
  have same := status' ends
  exact (status'' (same ▸ ends)).trans same

/-- The ticket has not too many photos. -/
def Capped (id : Id) (s : Desk) : Prop :=
  ∀ t ∈ s.tickets.find? id, t.photoR2Keys.length ≤ maintenancePhotoMax

/-- The ticket is as the call wants it. -/
def TicketCall.Done (id : Id) (call : TicketCall) (s : Desk) : Prop :=
  ∃ t ∈ s.tickets.find? id, (∀ photo ∈ call.appended, photo ∈ t.photoR2Keys) ∧
    ∀ status ∈ call.moves, t.status = status

/-- **A COMMIT** that is undisturbed loses nothing. -/
theorem Outcome.keeps {id : Id} {call : TicketCall} {a : MaintenanceRequest}
    {x : Session maintenance} {db : Desk} (S : Server) (ended : Outcome id call (.ok a) x db)
    (still : Undisturbed id x db call) (capped : Capped id db) :
    Capped id (x.view (engine S) db) ∧ Follows id db (x.view (engine S) db) ∧
      call.Done id (x.view (engine S) db) := by
  obtain ⟨s, old, d, now, read, found, patches, here, wrote⟩ := ended
  obtain ⟨photosStill, statusStill⟩ := still _ read rfl old found now here
  have key : now.id = id := Table.find?_key here
  have after : (x.view (engine S) db).tickets.find? id = some (d.apply now) := by
    rw [Session.view, wrote, ← key]
    exact db.tickets.find?_put_self (d.apply now)
  have photos : (d.apply now).photoR2Keys =
      if call.appended = [] then now.photoR2Keys else old.photoR2Keys ++ call.appended := by
    rw [TicketPatch.apply_photoR2Keys, patches.photos]
    split <;> rfl
  have status : (d.apply now).status = call.moves.getD now.status := by
    rw [TicketPatch.apply_status, patches.status]
  refine ⟨fun t ht => ?_, fun t ht => ?_, ⟨d.apply now, after, fun photo added => ?_,
    fun new set => ?_⟩⟩
  · cases after.symm.trans ht
    rw [photos]
    split
    · exact capped now here
    · rw [List.length_append]
      exact patches.few ‹_›
  · cases here.symm.trans ht
    refine ⟨d.apply now, after, fun photo there => ?_, fun ends => ?_⟩
    · rw [photos]
      split
      · exact there
      · exact List.mem_append.mpr (photosStill ‹_› photo there)
    · rw [status]
      cases set : call.moves with
      | none => rfl
      | some new =>
        -- A call that has read the terminal status can only set the same.
        obtain asRead | same := statusStill new set ends
        · obtain same | leaves := patches.allowed new set
          · exact same.symm.trans asRead.symm
          · rw [terminal, asRead] at ends
            rw [of_decide_eq_true ends] at leaves
            cases leaves
        · exact same.symm
  · rw [photos, if_neg (List.ne_nil_of_mem added)]
    exact List.mem_append_right _ added
  · rw [status, set]
    rfl

/-- **Calls on one ticket lose nothing** in any interleaving in which every COMMIT
is undisturbed: every photo that a committed call appended is there, there are
not too many, the ticket is cancelled if a committed call cancelled it, and no
commit moved it out of a terminal status. -/
theorem ticket_keeps_calls {ι : Type} [Fintype ι] [DecidableEq ι] (S : Server) (s : Desk) (id : Id)
    (capped : ∀ t ∈ s.tickets.find? id, t.photoR2Keys.length ≤ maintenancePhotoMax)
    (calls : ι → TicketCall) (as : List (Action ι)) (c : Config maintenance ι MaintenanceRequest)
    (run : (Config.start s fun t => (calls t).prog id).run (engine S) as = some c)
    (undisturbed : (Config.start s fun t => (calls t).prog id).Along (engine S)
      (Governed.CommitsUnder fun t x db => Undisturbed id x db (calls t)) as) :
    (∀ t a, c.txs t = .committed a → ∃ r ∈ c.db.tickets.find? id,
      (∀ photo ∈ (calls t).appended, photo ∈ r.photoR2Keys) ∧
      ((calls t).moves = some .cancelled → r.status = .cancelled)) ∧
    (∀ r ∈ c.db.tickets.find? id, r.photoR2Keys.length ≤ maintenancePhotoMax) ∧
    (c.db :: c.past).Pairwise fun late early => ∀ r ∈ early.tickets.find? id, terminal r.status →
      ∃ r' ∈ late.tickets.find? id, r'.status = r.status := by
  have guarantee : ∀ t a x db, Outcome id (calls t) (.ok a) x db → x.broken = false →
      OneTicket id db x.writes := by
    intro t a x db ended _
    obtain ⟨_, _, d, now, _, _, _, here, wrote⟩ := ended
    exact ⟨d.apply now, wrote, Table.find?_key here⟩
  obtain ⟨all, ordered, done⟩ := Governed.run_recorded (I := Capped id) (R := Follows id)
    (P := fun t => (calls t).Done id) (fun t => prog_holds S s id (calls t)) guarantee
    Follows.trans (fun t a x db ended _ still kept => Outcome.keeps S ended still kept) capped as
    run undisturbed
  refine ⟨fun t a committed => ?_, all c.db List.mem_cons_self, ?_⟩
  · obtain ⟨d, hd, r, here, photos, status⟩ := done t a committed
    have follows : Follows id d c.db := by
      obtain rfl | earlier := List.mem_cons.mp hd
      · exact Follows.refl id _
      · exact (List.pairwise_cons.mp ordered).1 d earlier
    obtain ⟨r', here', photos', status'⟩ := follows r here
    refine ⟨r', here', fun photo added => photos' photo (photos photo added), fun cancels => ?_⟩
    have cancelled : r.status = .cancelled := status .cancelled cancels
    exact (status' (by rw [cancelled]; rfl)).trans cancelled
  · refine ordered.imp fun follows r here ends => ?_
    obtain ⟨r', here', -, status⟩ := follows r here
    exact ⟨r', here', status ends⟩

namespace Demo

/-- The ticket of the tenant, with no photo yet. -/
def waiting : Desk where
  tickets := Table.put default ⟨901, 1, 201, 11, .plumbing, "Leak", "Under the sink", .normal,
    .opened, [], none, none, none⟩
  dorm := dorm

/-- The tenant adds a photo. -/
def append (photo : String) : TicketCall :=
  .updateForTenant Dormitory.Demo.ctx (fun _ => .ok (some ⟨none⟩))
    ⟨none, some [photo], false, by simp [maintenancePhotoMax], .inr (.inl ⟨_, rfl, by simp⟩)⟩ 11

def cancel : TicketCall :=
  .updateForTenant Dormitory.Demo.ctx (fun _ => .ok none)
    ⟨none, none, true, by simp, .inr (.inr rfl)⟩ 11

/-- Staff starts to work. -/
def start : TicketCall :=
  .update Dormitory.Demo.ctx 5 ⟨some .in_progress, none, none, none, .inl rfl⟩

def both (first second : TicketCall) (t : Fin 2) : TicketCall := if t = 0 then first else second

/-- The second call reads before the first one commits. -/
def crossed : List (Action (Fin 2)) :=
  [.advance 0, .advance 1, .advance 0, .advance 0, .advance 1, .advance 1]

def inTurn : List (Action (Fin 2)) :=
  [.advance 0, .advance 0, .advance 0, .advance 1, .advance 1, .advance 1]

def raced (calls : Fin 2 → TicketCall) (as : List (Action (Fin 2))) :
    Option (Config maintenance (Fin 2) MaintenanceRequest) :=
  (Config.start waiting fun t => (calls t).prog 901).run (engine Dormitory.Demo.server) as

end Demo

/-- A photo is added, and then work starts. -/
theorem ticket_keeps_calls_in_turn :
    ∃ c, Demo.raced (Demo.both (Demo.append "companies/1/maintenance/11/a.jpg") Demo.start)
        Demo.inTurn = some c ∧ ∃ r ∈ c.db.tickets.find? 901, r.status = .in_progress ∧
      "companies/1/maintenance/11/a.jpg" ∈ r.photoR2Keys := by
  have ended : ∃ c ∈ Demo.raced (Demo.both (Demo.append "companies/1/maintenance/11/a.jpg")
      Demo.start) Demo.inTurn, (∃ a, c.txs 0 = .committed a) ∧
      ∀ r ∈ c.db.tickets.find? 901, r.status = .in_progress := by
    decide +kernel
  obtain ⟨c, run, ⟨a, committed⟩, status⟩ := ended
  obtain ⟨r, here, photos, -⟩ := (ticket_keeps_calls Dormitory.Demo.server Demo.waiting 901
    (by decide) (Demo.both (Demo.append "companies/1/maintenance/11/a.jpg") Demo.start) Demo.inTurn
    c run (by decide +kernel)).1 0 a committed
  exact ⟨c, run, r, here, status r here, photos _ (by decide)⟩

/-- Two photos are added at the same time and one is lost; and the ticket of a
cancellation that went through is worked on. -/
theorem crossed_calls_lost :
    (∃ c, Demo.raced (Demo.both (Demo.append "companies/1/maintenance/11/a.jpg")
        (Demo.append "companies/1/maintenance/11/b.jpg")) Demo.crossed = some c ∧
      (∃ a, c.txs 0 = .committed a) ∧ (∃ a, c.txs 1 = .committed a) ∧
      ∀ r ∈ c.db.tickets.find? 901, "companies/1/maintenance/11/a.jpg" ∉ r.photoR2Keys) ∧
    (∃ c, Demo.raced (Demo.both Demo.cancel Demo.start) Demo.crossed = some c ∧
      (∃ a, c.txs 0 = .committed a) ∧ (∃ a, c.txs 1 = .committed a) ∧
      ∀ r ∈ c.db.tickets.find? 901, r.status = .in_progress) := by
  have lost : ∃ c ∈ Demo.raced (Demo.both (Demo.append "companies/1/maintenance/11/a.jpg")
      (Demo.append "companies/1/maintenance/11/b.jpg")) Demo.crossed,
      (∃ a, c.txs 0 = .committed a) ∧ (∃ a, c.txs 1 = .committed a) ∧
      ∀ r ∈ c.db.tickets.find? 901, "companies/1/maintenance/11/a.jpg" ∉ r.photoR2Keys := by
    decide +kernel
  have reopened : ∃ c ∈ Demo.raced (Demo.both Demo.cancel Demo.start) Demo.crossed,
      (∃ a, c.txs 0 = .committed a) ∧ (∃ a, c.txs 1 = .committed a) ∧
      ∀ r ∈ c.db.tickets.find? 901, r.status = .in_progress := by
    decide +kernel
  exact ⟨lost, reopened⟩

end Dormitory.Maintenance
