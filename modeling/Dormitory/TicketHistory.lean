import Dormitory.MaintenanceService

/-!
# The history of a ticket

Calls at the maintenance desk, one after another: what each one stores, when a
ticket has the time it was resolved at, and when it has a note.
-/

namespace Dormitory.Maintenance
open Txn MaintenanceService
open Premises (HeadObject)

/-- A call, with the answers of the object store and the clock. -/
inductive DeskRequest where
  | createForTenant (ctx : Ctx) (newId : Id) (head : Storage)
    (input : CreateMaintenanceRequestInput) (tenantId : Id)
  | update (ctx : Ctx) (now : Instant) (id : Id) (input : UpdateMaintenanceRequestInput)
  | updateForTenant (ctx : Ctx) (head : Storage) (id : Id)
    (input : TenantUpdateMaintenanceRequestInput) (tenantId : Id)
  | registerSlip (P : Premises.Pgcrypto) (ctx : Ctx) (head : Except Failure (Option HeadObject))
    (newId paymentId : Id) (input : Premises.UploadSlipInput)
  /-- Another service: it may change every table but the tickets and the slips. -/
  | elsewhere (change : Premises.Dorm → Premises.Dorm)

def DeskRequest.commit (S : Server) (s : Desk) : DeskRequest → Desk
  | createForTenant ctx newId head input tenantId =>
    served (MaintenanceService.createForTenant ctx newId head input tenantId)
  | update ctx now id input => served (MaintenanceService.update ctx now id input)
  | updateForTenant ctx head id input tenantId =>
    served (MaintenanceService.updateForTenant ctx head id input tenantId)
  | registerSlip P ctx head newId paymentId input =>
    { s with
      dorm := (Prog.serve (Premises.engine S P) (fun _ => true) s.dorm
        (Premises.SlipService.register ctx head newId paymentId input)).commit
        (Premises.engine S P) s.dorm }
  | elsewhere change => { s with dorm := { change s.dorm with slips := s.dorm.slips } }
where
  served (p : Prog maintenance MaintenanceRequest) : Desk :=
    (p.serve (engine S) (fun _ => true) s).commit (engine S) s

/-! ## What a call stores -/

section stores
variable {S : Server} {s : Desk} {ctx : Ctx} {t r : MaintenanceRequest} {d : TicketPatch}

/-- The ticket of a new report. -/
def newTicket (ctx : Ctx) (newId : Id) (input : CreateMaintenanceRequestInput)
    (tenantId unitId : Id) : MaintenanceRequest where
  id := newId
  companyId := ctx.companyId
  unitId := unitId
  tenantId := tenantId
  category := input.category
  title := input.title
  description := input.description
  priority := input.priority.getD .normal
  status := .opened
  photoR2Keys := input.photoR2Keys
  assignedToUserId := none
  resolutionNote := none
  resolvedAt := none

/-- The row that a call stores. -/
inductive Stores (s : Desk) : DeskRequest → MaintenanceRequest → Prop
  | created {ctx : Ctx} {newId : Id} {head : Storage} {input : CreateMaintenanceRequestInput}
      {tenantId unitId : Id} (fresh : s.tickets.find? newId = none)
      (checked : checkPhotos (expectedPrefix ctx.companyId tenantId) head input.photoR2Keys =
        .ok ()) :
      Stores s (.createForTenant ctx newId head input tenantId)
        (newTicket ctx newId input tenantId unitId)
  | updated {ctx : Ctx} {now : Instant} {id : Id} {input : UpdateMaintenanceRequestInput}
      {t : MaintenanceRequest} {d : TicketPatch} (found : ticket? ctx.companyId s id = some t)
      (data : updateData now t input = .ok d) (assigned : Connects ctx.companyId s d) :
      Stores s (.update ctx now id input) (d.apply t)
  | updatedForTenant {ctx : Ctx} {head : Storage} {id : Id}
      {input : TenantUpdateMaintenanceRequestInput} {tenantId : Id} {t : MaintenanceRequest}
      {d : TicketPatch} (found : ticket? ctx.companyId s id = some t) (own : t.tenantId = tenantId)
      (data : tenantData ctx tenantId head t input = .ok d) :
      Stores s (.updateForTenant ctx head id input tenantId) (d.apply t)

theorem ticket?_mem {c id : Id} (found : ticket? c s id = some t) :
    t ∈ s.tickets.rows ∧ t.id = id ∧ t.companyId = c := by
  obtain ⟨here, company⟩ := Option.filter_eq_some_iff.mp found
  exact ⟨Table.find?_mem here, Table.find?_key here, of_decide_eq_true company⟩

/-- What a call may leave behind: nothing new, or a row in its place. -/
def Leaves (s : Desk) (call : DeskRequest) (s' : Desk) : Prop :=
  s' = s ∨ ∃ r, Stores s call r ∧ s' = { s with tickets := s.tickets.put r }

section calls
variable {ws : List Row} {Q : Desk → Prop} {β : Type}

theorem orThrow_leaves {α : Type} {err : Failure} {found : Option α} {f : α → Prog maintenance β}
    (undone : Q s) (rest : ∀ a, found = some a → (f a).Leaves (engine S) s ws Q) :
    (orThrow err found >>= f).Leaves (engine S) s ws Q := by
  cases found with
  | none => exact Prog.Leaves.fail (σ := maintenance) err undone
  | some a => exact rest a rfl

theorem orRaise_leaves {α : Type} {outcome : Except Failure α} {f : α → Prog maintenance β}
    (undone : Q s) (rest : ∀ a, outcome = .ok a → (f a).Leaves (engine S) s ws Q) :
    (orRaise outcome >>= f).Leaves (engine S) s ws Q := by
  cases outcome with
  | error err => exact Prog.Leaves.fail (σ := maintenance) err undone
  | ok a => exact rest a rfl

/-- A look at the database. -/
theorem look_leaves {q : Query} {a : q.Ans} {f : q.Ans → Prog maintenance β} (undone : Q s)
    (reads : run S ctx.companyId s q = .ok ([], a)) (rest : (f a).Leaves (engine S) s [] Q) :
    (prisma ctx q >>= f).Leaves (engine S) s [] Q := by
  refine Prog.Leaves.query (σ := maintenance) (s := (⟨ctx.companyId, q⟩ : Statement)) undone
    fun ws' a' ran => ?_
  cases reads.symm.trans ran
  exact rest

/-- The write at the end. -/
theorem write_leaves {q : Query} (undone : Q s)
    (stores : ∀ ws a, run S ctx.companyId s q = .ok (ws, a) → Q (ws.foldl Row.apply s)) :
    (prisma ctx q).Leaves (engine S) s [] Q :=
  Prog.Leaves.last (σ := maintenance) (s := (⟨ctx.companyId, q⟩ : Statement)) undone stores

theorem assertAssignee_leaves {assignee : Option (Option Id)} {f : Unit → Prog maintenance β}
    (undone : Q s) (rest : (f ()).Leaves (engine S) s [] Q) :
    (assertAssignee ctx assignee >>= f).Leaves (engine S) s [] Q := by
  rcases assignee with _ | _ | userId
  · exact rest
  · exact rest
  · unfold assertAssignee
    rw [Prog.bind_assoc]
    refine look_leaves undone rfl ?_
    cases user? ctx.companyId s userId with
    | none => exact Prog.Leaves.fail (σ := maintenance) _ undone
    | some user => exact rest

theorem updateTicket_leaves {id : Id} (undone : Q s) (found : ticket? ctx.companyId s id = some t)
    (stored : Connects ctx.companyId s d → Q { s with tickets := s.tickets.put (d.apply t) }) :
    (prisma ctx (.ticketUpdate id d)).Leaves (engine S) s [] Q := by
  refine write_leaves undone fun ws a ran => ?_
  simp only [run, updateTicket, found] at ran
  split at ran
  · rename_i assigned
    cases ran
    exact stored assigned
  · cases ran

end calls

theorem createForTenant_leaves (newId : Id) (head : Storage)
    (input : CreateMaintenanceRequestInput) (tenantId : Id) :
    (createForTenant ctx newId head input tenantId).Leaves (engine S) s []
      (Leaves s (.createForTenant ctx newId head input tenantId)) := by
  unfold createForTenant
  refine look_leaves (.inl rfl) rfl (orThrow_leaves (.inl rfl) fun contract _ => ?_)
  refine orRaise_leaves (.inl rfl) fun _ checked => write_leaves (.inl rfl) fun ws a ran => ?_
  simp only [run, createTicket] at ran
  split at ran
  · cases ran
  · rename_i fresh
    split at ran
    · cases ran
    · cases ran
      refine .inr ⟨newTicket ctx newId input tenantId contract.unitId, .created ?_ checked, rfl⟩
      simpa using fresh

theorem update_leaves (now : Instant) (id : Id) (input : UpdateMaintenanceRequestInput) :
    (update ctx now id input).Leaves (engine S) s [] (Leaves s (.update ctx now id input)) := by
  unfold update getById
  rw [Prog.bind_assoc]
  refine look_leaves (.inl rfl) rfl (orThrow_leaves (.inl rfl) fun t found => ?_)
  refine assertAssignee_leaves (.inl rfl) (orRaise_leaves (.inl rfl) fun d data => ?_)
  exact updateTicket_leaves (.inl rfl) found fun assigned =>
    .inr ⟨d.apply t, .updated found data assigned, rfl⟩

theorem updateForTenant_leaves (head : Storage) (id : Id)
    (input : TenantUpdateMaintenanceRequestInput) (tenantId : Id) :
    (updateForTenant ctx head id input tenantId).Leaves (engine S) s []
      (Leaves s (.updateForTenant ctx head id input tenantId)) := by
  unfold updateForTenant getByIdForTenant
  rw [Prog.bind_assoc]
  refine look_leaves (.inl rfl) rfl (orThrow_leaves (.inl rfl) fun t seen => ?_)
  refine orRaise_leaves (.inl rfl) fun d data => ?_
  obtain ⟨found, own⟩ := Option.filter_eq_some_iff.mp seen
  exact updateTicket_leaves (.inl rfl) found fun _ =>
    .inr ⟨d.apply t, .updatedForTenant found (of_decide_eq_true own) data, rfl⟩

/-- **A call stores one row** or leaves the tickets as they were. -/
theorem DeskRequest.commit_tickets (S : Server) (s : Desk) (call : DeskRequest) :
    (call.commit S s).tickets = s.tickets ∨
      ∃ r, Stores s call r ∧ (call.commit S s).tickets = s.tickets.put r := by
  have put : ∀ {s'}, Leaves s call s' → s'.tickets = s.tickets ∨
      ∃ r, Stores s call r ∧ s'.tickets = s.tickets.put r := by
    rintro s' (rfl | ⟨r, stores, rfl⟩)
    · exact .inl rfl
    · exact .inr ⟨r, stores, rfl⟩
  cases call with
  | createForTenant ctx newId head input tenantId =>
    exact put ((createForTenant_leaves newId head input tenantId).serve _)
  | update ctx now id input => exact put ((update_leaves now id input).serve _)
  | updateForTenant ctx head id input tenantId =>
    exact put ((updateForTenant_leaves head id input tenantId).serve _)
  | registerSlip => exact .inl rfl
  | elsewhere => exact .inl rfl

end stores

/-! ## What a patch does -/

/-- A step of a validation that went through. -/
theorem ok_of_bind {α β : Type} {x : Except Failure α} {f : α → Except Failure β} {b : β}
    (went : x >>= f = .ok b) : ∃ a, x = .ok a ∧ f a = .ok b := by
  cases x with
  | error err => cases went
  | ok a => exact ⟨a, rfl, went⟩

theorem assertStatusTransition_ok {old new : MaintenanceStatus}
    (accepted : assertStatusTransition old new = .ok ()) :
    old = new ∨ new ∈ statusTransitions old := by
  unfold assertStatusTransition at accepted
  by_cases same : old = new
  · exact .inl same
  · rw [if_neg same] at accepted
    by_cases allowed : new ∈ statusTransitions old
    · exact .inr allowed
    · simp [allowed] at accepted

section patches
variable {ctx : Ctx} {t : MaintenanceRequest} {d : TicketPatch}

/-- A patch of the staff that goes through. -/
theorem updateData_cases {now : Instant} {input : UpdateMaintenanceRequestInput}
    (data : updateData now t input = .ok d) :
    d.photoR2Keys = none ∧ d.assignedToUserId = input.assignedToUserId ∧
      d.resolutionNote = input.resolutionNote ∧ d.status = input.status ∧
      ((input.status = none ∧ d.resolvedAt = none) ∨
        ∃ status, input.status = some status ∧
          (t.status = status ∨ status ∈ statusTransitions t.status) ∧
          (needsNote status → blank (input.resolutionNote.getD t.resolutionNote) = false) ∧
          d.resolvedAt = if status = .resolved then some (some now)
            else if t.status = .resolved then some none else none) := by
  unfold updateData at data
  cases given : input.status with
  | none =>
    simp only [given] at data
    cases data
    exact ⟨rfl, rfl, rfl, rfl, .inl ⟨rfl, rfl⟩⟩
  | some status =>
    simp only [given] at data
    obtain ⟨⟨⟩, moves, data⟩ := ok_of_bind data
    split at data
    · cases data
    · rename_i noted
      cases data
      refine ⟨rfl, rfl, rfl, rfl, .inr ⟨status, rfl, assertStatusTransition_ok moves,
        fun needs => ?_, rfl⟩⟩
      simpa [needs] using noted

theorem assertEdit_ok {cancel : Bool} {what conflict : String}
    (accepted : assertEdit t cancel what conflict = .ok ()) :
    editable t.status ∧ cancel = false := by
  unfold assertEdit at accepted
  split at accepted
  · split at accepted
    · cases accepted
    · exact ⟨‹_›, eq_false_of_ne_true ‹_›⟩
  · cases accepted

theorem assertFew_ok {keys : List String} (accepted : assertFew t keys = .ok ()) :
    t.photoR2Keys.length + keys.length ≤ maintenancePhotoMax := by
  simp only [assertFew] at accepted
  split at accepted
  · cases accepted
  · exact Nat.le_of_not_lt ‹_›

theorem cancelData_ok {cancel : Bool} (accepted : cancelData t cancel = .ok d) :
    (cancel = true ∧ t.status = .opened ∧
        d = { status := some .cancelled, resolutionNote := some (some cancelNote) }) ∨
      (cancel = false ∧ d = {}) := by
  unfold cancelData at accepted
  split at accepted
  · split at accepted
    · cases accepted
    · cases accepted
      exact .inl ⟨‹_›, not_not.mp ‹_›, rfl⟩
  · cases accepted
    exact .inr ⟨eq_false_of_ne_true ‹_›, rfl⟩

theorem describeData_ok {cancel : Bool} {data : TicketPatch} {description : Option String}
    (accepted : describeData t cancel data description = .ok d) :
    ∃ text, d = { data with description := text } := by
  cases description with
  | none =>
    cases accepted
    exact ⟨d.description, rfl⟩
  | some text =>
    obtain ⟨_, _, accepted⟩ := ok_of_bind accepted
    cases accepted
    exact ⟨some text, rfl⟩

theorem appendData_ok {tenantId : Id} {head : Storage} {cancel : Bool} {data : TicketPatch}
    {keys : List String} (accepted : appendData ctx tenantId head t cancel data keys = .ok d) :
    (keys = [] ∧ d = data) ∨
      (keys ≠ [] ∧ editable t.status ∧ t.photoR2Keys.length + keys.length ≤ maintenancePhotoMax ∧
        checkPhotos (expectedPrefix ctx.companyId tenantId) head keys = .ok () ∧
        d = { data with photoR2Keys := some (t.photoR2Keys ++ keys) }) := by
  cases keys with
  | nil =>
    cases accepted
    exact .inl ⟨rfl, rfl⟩
  | cons key keys =>
    obtain ⟨⟨⟩, edits, accepted⟩ := ok_of_bind accepted
    obtain ⟨⟨⟩, few, accepted⟩ := ok_of_bind accepted
    obtain ⟨⟨⟩, checked, accepted⟩ := ok_of_bind accepted
    cases accepted
    exact .inr ⟨List.cons_ne_nil _ _, (assertEdit_ok edits).1, assertFew_ok few, checked, rfl⟩

/-- A patch of the tenant that goes through. -/
theorem tenantData_cases {tenantId : Id} {head : Storage}
    {input : TenantUpdateMaintenanceRequestInput}
    (data : tenantData ctx tenantId head t input = .ok d) :
    d.resolvedAt = none ∧
      ((input.cancel = true ∧ t.status = .opened ∧ d.status = some .cancelled ∧
          d.resolutionNote = some (some cancelNote)) ∨
        (input.cancel = false ∧ d.status = none ∧ d.resolutionNote = none)) ∧
      ((input.appendPhotoR2Keys.getD [] = [] ∧ d.photoR2Keys = none) ∨
        (input.appendPhotoR2Keys.getD [] ≠ [] ∧ editable t.status ∧
          t.photoR2Keys.length + (input.appendPhotoR2Keys.getD []).length ≤ maintenancePhotoMax ∧
          checkPhotos (expectedPrefix ctx.companyId tenantId) head
            (input.appendPhotoR2Keys.getD []) = .ok () ∧
          d.photoR2Keys = some (t.photoR2Keys ++ input.appendPhotoR2Keys.getD []))) := by
  obtain ⟨cancelled, cancels, data⟩ := ok_of_bind data
  obtain ⟨described, describes, appends⟩ := ok_of_bind data
  obtain ⟨text, rfl⟩ := describeData_ok describes
  have cancelled_is : cancelled.photoR2Keys = none ∧ cancelled.resolvedAt = none ∧
      ((input.cancel = true ∧ t.status = .opened ∧ cancelled.status = some .cancelled ∧
          cancelled.resolutionNote = some (some cancelNote)) ∨
        (input.cancel = false ∧ cancelled.status = none ∧ cancelled.resolutionNote = none)) := by
    obtain ⟨asked, waiting, rfl⟩ | ⟨asked, rfl⟩ := cancelData_ok cancels
    · exact ⟨rfl, rfl, .inl ⟨asked, waiting, rfl, rfl⟩⟩
    · exact ⟨rfl, rfl, .inr ⟨asked, rfl, rfl⟩⟩
  obtain ⟨photos, resolved, status⟩ := cancelled_is
  obtain ⟨none_given, rfl⟩ | ⟨given, edits, few, checked, rfl⟩ := appendData_ok appends
  · exact ⟨resolved, status, .inl ⟨none_given, photos⟩⟩
  · exact ⟨resolved, status, .inr ⟨given, edits, few, checked, rfl⟩⟩

end patches

/-! ## Photos and the time of the resolution -/

/-- It has the time it was resolved at exactly while it is resolved. -/
def Settled (t : MaintenanceRequest) : Prop := t.resolvedAt.isSome ↔ t.status = .resolved

theorem settled_of_ne {t : MaintenanceRequest} (empty : t.resolvedAt = none)
    (ne : t.status ≠ .resolved) : Settled t := by
  simp [Settled, empty, ne]

theorem Settled.resolvedAt {t : MaintenanceRequest} (settled : Settled t)
    (ne : t.status ≠ .resolved) : t.resolvedAt = none := by
  simpa [Settled, ne] using settled

/-- Every ticket is still there with its photos, and with more after them. -/
def KeepsPhotos (s s' : Desk) : Prop :=
  ∀ t ∈ s.tickets.rows, ∃ t' ∈ s'.tickets.rows,
    t'.id = t.id ∧ t.photoR2Keys <+: t'.photoR2Keys

theorem KeepsPhotos.refl (s : Desk) : KeepsPhotos s s :=
  fun t ht => ⟨t, ht, rfl, List.prefix_rfl⟩

theorem KeepsPhotos.trans {s s' s'' : Desk} (first : KeepsPhotos s s')
    (second : KeepsPhotos s' s'') : KeepsPhotos s s'' := by
  intro t ht
  obtain ⟨t', ht', same', begins'⟩ := first t ht
  obtain ⟨t'', ht'', same'', begins''⟩ := second t' ht'
  exact ⟨t'', ht'', same''.trans same', begins'.trans begins''⟩

section history
variable {S : Server} {s : Desk} {call : DeskRequest} {t r : MaintenanceRequest}

theorem Stores.settled (stores : Stores s call r) (all : ∀ t ∈ s.tickets.rows, Settled t) :
    Settled r := by
  cases stores with
  | created => exact settled_of_ne rfl (by simp [newTicket])
  | @updated _ _ _ _ t d found data =>
    have before := all t (ticket?_mem found).1
    obtain ⟨-, -, -, status, ⟨none_given, time⟩ | ⟨new, given, -, -, time⟩⟩ := updateData_cases data
    · simpa [Settled, status, none_given, time] using before
    · by_cases resolves : new = .resolved
      · simp [Settled, status, given, time, resolves]
      · refine settled_of_ne ?_ (by simpa [status, given] using resolves)
        by_cases reopens : t.status = .resolved
        · simp [time, resolves, reopens]
        · simpa [time, resolves, reopens] using before.resolvedAt reopens
  | @updatedForTenant _ _ _ _ _ t d found own data =>
    have before := all t (ticket?_mem found).1
    obtain ⟨time, ⟨-, waiting, status, -⟩ | ⟨-, status, -⟩, -⟩ := tenantData_cases data
    · -- An open ticket has no time yet, and a cancelled one needs none.
      refine settled_of_ne ?_ (by simp [status])
      simpa [time] using before.resolvedAt (by simp [waiting])
    · simpa [Settled, status, time] using before

theorem Stores.photos (stores : Stores s call r) :
    ∀ t ∈ s.tickets.rows, t.id = r.id → t.photoR2Keys <+: r.photoR2Keys := by
  intro t ht same
  have replaced : ∀ {c id t'}, ticket? c s id = some t' → t.id = t'.id → t = t' :=
    fun found => s.tickets.key_inj ht (ticket?_mem found).1
  cases stores with
  | created fresh =>
    have old := s.tickets.find?_of_mem ht
    rw [show key t = _ from same] at old
    cases fresh.symm.trans old
  | updated found data =>
    obtain rfl := replaced found same
    simp [(updateData_cases data).1]
  | updatedForTenant found own data =>
    obtain rfl := replaced found same
    obtain ⟨-, -, ⟨-, photos⟩ | ⟨-, -, -, -, photos⟩⟩ := tenantData_cases data
    · simp [photos]
    · simp [photos]

/-- What every stored row has, if all tickets before the call have it. -/
theorem DeskRequest.commit_keeps {P : MaintenanceRequest → Prop} (call : DeskRequest)
    (all : ∀ t ∈ s.tickets.rows, P t) (stored : ∀ r, Stores s call r → P r) :
    ∀ t ∈ (call.commit S s).tickets.rows, P t := by
  obtain same | ⟨r, stores, same⟩ := call.commit_tickets S s
  · rwa [same]
  · rw [same]
    intro t ht
    obtain rfl | ⟨old, -⟩ := Table.mem_put.mp ht
    · exact stored t stores
    · exact all t old

theorem DeskRequest.commit_keepsPhotos (S : Server) (s : Desk) (call : DeskRequest) :
    KeepsPhotos s (call.commit S s) := by
  obtain same | ⟨r, stores, same⟩ := call.commit_tickets S s
  · rw [KeepsPhotos, same]
    exact KeepsPhotos.refl s
  · rw [KeepsPhotos, same]
    exact Table.put_keeps (fun t => ⟨rfl, List.prefix_rfl⟩)
      fun t ht same => ⟨same.symm, stores.photos t ht same⟩

end history

/-- **The history of every ticket.** From a desk without tickets, in any order of
calls: a ticket has a time of resolution exactly while it is resolved, so none is
left after it is reopened, closed or cancelled, and photos are only added, at the
end. -/
theorem ticket_history (S : Server) (dorm : Premises.Dorm) (calls : List DeskRequest) :
    (∀ s ∈ states (DeskRequest.commit S) { dorm := dorm } calls, ∀ t ∈ s.tickets.rows,
      (t.resolvedAt.isSome ↔ t.status = .resolved)) ∧
    (states (DeskRequest.commit S) { dorm := dorm } calls).Pairwise fun s s' =>
      ∀ t ∈ s.tickets.rows, ∃ t' ∈ s'.tickets.rows,
        t'.id = t.id ∧ t.photoR2Keys <+: t'.photoR2Keys := by
  constructor
  · exact states_keep (I := fun s : Desk => ∀ t ∈ s.tickets.rows, Settled t)
      (fun _ call all => call.commit_keeps all fun _ stores => stores.settled all)
      (fun _ new => nomatch new)
  · exact states_pairwise KeepsPhotos.trans (DeskRequest.commit_keepsPhotos S)

/-! ## The note -/

theorem blank_eq_false {note : Option String} :
    blank note = false ↔ ∃ text ∈ note, AuditLogInterceptor.trim text.toList ≠ [] := by
  cases note with
  | none => simp [blank]
  | some text => simp [blank]

/-- Who reads that the ticket is resolved or cancelled reads why. -/
def Noted (t : MaintenanceRequest) : Prop :=
  t.status = .resolved ∨ t.status = .cancelled →
    ∃ text ∈ t.resolutionNote, AuditLogInterceptor.trim text.toList ≠ []

theorem noted_iff {t : MaintenanceRequest} :
    Noted t ↔ (needsNote t.status = true → blank t.resolutionNote = false) := by
  simp [Noted, needsNote, blank_eq_false]

/-- A patch of the note alone, by `null` or by white space, that comes through to
a ticket that is resolved or cancelled. -/
def BlanksNote (s : Desk) : DeskRequest → Prop
  | .update ctx _ id input =>
    input.status = none ∧ (∃ note ∈ input.resolutionNote, blank note = true) ∧
      Connects ctx.companyId s { assignedToUserId := input.assignedToUserId } ∧
      ∃ t, ticket? ctx.companyId s id = some t ∧ needsNote t.status = true
  | .createForTenant .. | .updateForTenant .. | .registerSlip .. | .elsewhere _ => False

section notes
variable {S : Server} {s : Desk} {call : DeskRequest} {r : MaintenanceRequest}

theorem Stores.noted (stores : Stores s call r) (all : ∀ t ∈ s.tickets.rows, Noted t)
    (kept : ¬ BlanksNote s call) : Noted r := by
  cases stores with
  | created => exact fun ends => by simp [newTicket] at ends
  | @updated ctx now id input t d found data assigned =>
    have before := noted_iff.mp (all t (ticket?_mem found).1)
    obtain ⟨-, assignee, note, status, ⟨stays, -⟩ | ⟨new, given, -, noted, -⟩⟩ :=
      updateData_cases data
    · refine noted_iff.mpr fun ends => ?_
      rw [TicketPatch.apply_status, status, stays] at ends
      rw [TicketPatch.apply_resolutionNote, note]
      cases written : input.resolutionNote with
      | none => exact before ends
      | some text =>
        -- The ticket stays resolved or cancelled, so the new note is not blank.
        refine eq_false_of_ne_true fun blanks => kept ⟨stays, ⟨text, written, blanks⟩, ?_⟩
        rw [Connects, assignee] at assigned
        exact ⟨assigned, t, found, ends⟩
    · exact noted_iff.mpr (by simpa [status, note, given] using noted)
  | @updatedForTenant _ _ _ _ _ t d found own data =>
    have before := noted_iff.mp (all t (ticket?_mem found).1)
    obtain ⟨-, ⟨-, -, status, note⟩ | ⟨-, status, note⟩, -⟩ := tenantData_cases data
    · refine noted_iff.mpr fun _ => ?_
      simp only [TicketPatch.apply_resolutionNote, note, Option.getD_some]
      decide
    · exact noted_iff.mpr (by simpa [status, note] using before)

/-- A patch without a status is not checked. -/
theorem updateData_of_none {now : Instant} {t : MaintenanceRequest}
    {input : UpdateMaintenanceRequestInput} (stays : input.status = none) :
    updateData now t input = .ok
      { assignedToUserId := input.assignedToUserId
        priority := input.priority
        resolutionNote := input.resolutionNote } := by
  simp only [updateData, stays]
  rfl

theorem assertAssignee_serves {ctx : Ctx} {assignee : Option (Option Id)} {β : Type}
    {f : Unit → Prog maintenance β} {res : Except Failure β} {s' : Desk}
    (assigned : Connects ctx.companyId s { assignedToUserId := assignee })
    (rest : (f ()).Serves (engine S) s [] res s') :
    (assertAssignee ctx assignee >>= f).Serves (engine S) s [] res s' := by
  rcases assignee with _ | _ | userId
  · exact rest
  · exact rest
  · unfold assertAssignee
    rw [Prog.bind_assoc]
    obtain ⟨user, visible⟩ := Option.isSome_iff_exists.mp (assigned _ rfl userId rfl)
    have ran : (engine S).exec (⟨ctx.companyId, .userFindUnique userId⟩ : Statement) s =
        .ok ([], some user) := congrArg (fun a => Except.ok ([], a)) visible
    exact Prog.Serves.query ran rest

theorem update_serves {ctx : Ctx} {now : Instant} {id : Id} {input : UpdateMaintenanceRequestInput}
    {t : MaintenanceRequest} {d : TicketPatch} (found : ticket? ctx.companyId s id = some t)
    (data : updateData now t input = .ok d)
    (assigned : Connects ctx.companyId s { assignedToUserId := input.assignedToUserId }) :
    (update ctx now id input).Serves (engine S) s [] (.ok (d.apply t))
      { s with tickets := s.tickets.put (d.apply t) } := by
  unfold update getById
  rw [Prog.bind_assoc]
  have looked : (engine S).exec (⟨ctx.companyId, .ticketFindUnique id⟩ : Statement) s =
      .ok ([], some t) := congrArg (fun a => Except.ok ([], a)) found
  have connects : Connects ctx.companyId s d := by
    rw [Connects, (updateData_cases data).2.1]
    exact assigned
  have stored : (engine S).exec (⟨ctx.companyId, .ticketUpdate id d⟩ : Statement) s =
      .ok ([.ticket (d.apply t)], d.apply t) := by
    change run S ctx.companyId s (.ticketUpdate id d) = _
    simp only [run, updateTicket, found, if_pos connects]
  refine Prog.Serves.query looked (assertAssignee_serves assigned ?_)
  rw [data]
  change (prisma ctx (.ticketUpdate id d)).Serves (engine S) s [] (.ok (d.apply t))
    (([] ++ [Row.ticket (d.apply t)]).foldl (engine S).apply s)
  exact Prog.Serves.last stored

/-- **One call** keeps every ticket noted exactly when it blanks no note. -/
theorem DeskRequest.commit_noted_iff (S : Server) (call : DeskRequest)
    (all : ∀ t ∈ s.tickets.rows, Noted t) :
    (∀ t ∈ (call.commit S s).tickets.rows, Noted t) ↔ ¬ BlanksNote s call := by
  constructor
  · intro noted blanks
    match call with
    | .update ctx now id input =>
      obtain ⟨stays, ⟨note, written, blanks⟩, assigned, t, found, ends⟩ := blanks
      have left : ((DeskRequest.update ctx now id input).commit S s).tickets = s.tickets.put _ :=
        congrArg Desk.tickets
          ((update_serves found (updateData_of_none stays) assigned).serve fun _ => true).2
      have stored := noted_iff.mp (noted _ (left ▸ Table.mem_put.mpr (.inl rfl)))
      rw [TicketPatch.apply_status, Option.getD_none, TicketPatch.apply_resolutionNote,
        written, Option.getD_some, blanks] at stored
      cases stored ends
  · exact fun kept => call.commit_keeps all fun r stores => stores.noted all kept

end notes

/-- **When resolved and cancelled tickets have a note.** From a desk without
tickets, in every state, exactly when no call blanks the note of such a ticket. -/
theorem tickets_noted_iff (S : Server) (dorm : Premises.Dorm) (calls : List DeskRequest) :
    (∀ s ∈ states (DeskRequest.commit S) { dorm := dorm } calls, ∀ t ∈ s.tickets.rows, Noted t) ↔
      Throughout (DeskRequest.commit S) (fun s call => ¬ BlanksNote s call) { dorm := dorm }
        calls :=
  states_iff (I := fun _ => True) (P := fun _ _ => True)
    (Q := fun s : Desk => ∀ t ∈ s.tickets.rows, Noted t) (fun _ _ _ _ => trivial)
    (fun _ call _ all _ => call.commit_noted_iff S all) trivial (fun _ new => nomatch new)
    (throughout_true _ _ _)

namespace Demo

/-- Tenant 11 rents the room. -/
def dorm : Premises.Dorm where
  units := Table.put default ⟨⟨201, 1, 3, "A1"⟩, 1, .occupied, Dormitory.Demo.baht 2000, none, none⟩
  tenants := Table.put default ⟨⟨⟨11, 1, none, .active⟩, "Somchai", none⟩, none, none⟩
  estate :=
    { contracts := Table.put default ⟨⟨101, 1, 201, 11, Dormitory.Demo.baht 2000, .active⟩, 0, none,
        Dormitory.Demo.baht 0, none⟩ }

/-- The tenant reports a leak; staff patches the ticket. -/
def report : DeskRequest :=
  .createForTenant Dormitory.Demo.ctx 901 (fun _ => .ok none)
    ⟨.plumbing, "Leak", "Under the sink", none, [], by decide⟩ 11

def move (status : MaintenanceStatus) (note : Option (Option String)) : DeskRequest :=
  .update Dormitory.Demo.ctx 5 901 ⟨some status, none, none, note, .inl rfl⟩

def rewrite (note : Option String) : DeskRequest :=
  .update Dormitory.Demo.ctx 6 901 ⟨none, none, none, some note, .inr (.inr (.inr rfl))⟩

end Demo

/-- A note is removed from a resolved ticket. -/
theorem resolved_without_note :
    ∃ s ∈ states (DeskRequest.commit Dormitory.Demo.server) { dorm := Demo.dorm }
      [Demo.report, Demo.move .in_progress none, Demo.move .resolved (some (some "Tightened")),
        Demo.rewrite none],
      ∃ t ∈ s.tickets.rows, t.status = .resolved ∧ t.resolutionNote = none ∧ ¬ Noted t :=
  ⟨_, last_mem_states _ _ _, ⟨901, 1, 201, 11, .plumbing, "Leak", "Under the sink", .normal,
    .resolved, [], none, none, some 5⟩, by decide, rfl, rfl, by simp [Noted]⟩

end Dormitory.Maintenance
