import Dormitory.ReadingsGrid

/-!
# Saves of the readings grid

One browser with the page open, the server behind it and everybody else, in any
order of visits, edits, saves and answers: when a save goes to the period that
the grid shows.
-/

namespace Dormitory
open Txn

/-! ## Readings and their periods -/

namespace Leasing

/-- There is a reading of the period under the id. -/
def ReadIn (e : Estate) (id : Id) (period : Period) : Prop :=
  ∃ r ∈ e.readings.rows, r.id = id ∧ r.period = period

instance (e : Estate) (id : Id) (period : Period) : Decidable (ReadIn e id period) :=
  inferInstanceAs (Decidable (∃ r ∈ e.readings.rows, _))

section
variable {S : Server} {ctx : Ctx} {e : Estate} {id : Id} {period : Period}

theorem ReadIn.unique {period' : Period} (h : ReadIn e id period) (h' : ReadIn e id period') :
    period = period' := by
  obtain ⟨r, hr, rfl, rfl⟩ := h
  obtain ⟨r', hr', same, rfl⟩ := h'
  rw [e.readings.key_inj hr' hr same]

theorem ReadIn.put (h : ReadIn e id period) {r' : ReadingRow}
    (replaces : ∀ r ∈ e.readings.rows, r.id = r'.id → r'.period = r.period) :
    ReadIn { e with readings := e.readings.put r' } id period := by
  obtain ⟨r, hr, rfl, rfl⟩ := h
  have kept : ∀ r ∈ e.readings.rows, ∃ x ∈ (e.readings.put r').rows,
      x.id = r.id ∧ x.period = r.period :=
    Table.put_keeps (fun _ => ⟨rfl, rfl⟩) fun x hx same => ⟨same.symm, replaces x hx same⟩
  exact kept r hr

theorem ReadIn.write {ws : List Row} (h : ReadIn e id period) (writes : Writes e ws) :
    ReadIn (ws.foldl Row.apply e) id period := by
  cases writes with
  | nothing | contract | newMeter | meter => exact h
  | newReading r fresh free =>
    refine h.put fun x hx same => ?_
    exact absurd (List.mem_map.mpr ⟨x, hx, same⟩) (Table.find?_eq_none_iff.mp fresh)
  | reading r r' stored same companyId meterId period =>
    refine h.put fun x hx same' => ?_
    rw [period, e.readings.key_inj hx stored (same'.trans same)]

/-- No call moves a reading to another period or drops one. -/
theorem ReadIn.serve {α : Type} (h : ReadIn e id period) (p : Prog leasing α) :
    ReadIn ((p.serve (engine S) (fun _ => true) e).commit (engine S) e) id period :=
  Prog.serve_keeps (I := fun e' => ReadIn e' id period) _ p
    (fun _ _ _ _ kept ran => kept.write (run_writes ran)) h

theorem ReadIn.commit (h : ReadIn e id period) (call : LeasingCall) :
    ReadIn (call.commit S ctx e) id period := by
  cases call with
  | createContract | updateContract | createMeter | updateMeter | createReading | updateReading =>
    exact h.serve _

/-- The reading that is created is one of the period asked for. -/
theorem create_answers (newId : Id) (now : Instant) (input : CreateReadingInput) :
    (ReadingService.create ctx newId now input).Answers (engine S) e [] fun r e' =>
      r.period = input.period ∧ ReadIn e' r.id input.period := by
  unfold ReadingService.create ReadingService.assertMeterVisible
    ReadingService.resolveValuePrevious
  rw [Prog.bind_assoc]
  refine Prog.Answers.query fun ws meter _ => ?_
  cases meter with
  | none => exact .fail _
  | some meter =>
    rw [Prog.pure_eq, Prog.bind_ret, Prog.bind_assoc]
    refine Prog.Answers.query fun ws' prior _ => ?_
    cases prior <;>
      · simp only [Prog.pure_eq, Prog.bind_ret]
        split
        · exact .fail _
        · refine .attempt (.last fun ws'' a ran => ?_) fun err => ?_
          · obtain ⟨rfl, -, -, -, -, period⟩ := createReading_row ran
            rw [List.foldl_append]
            exact ⟨period, a, Table.mem_put.mpr (.inl rfl), rfl, period⟩
          · split <;> exact ⟨_, rfl⟩

/-- The reading that is updated is the one asked for, of the period it was. -/
theorem update_answers (input : UpdateReadingInput) (stored : ReadIn e id period) :
    (ReadingService.update ctx id input).Answers (engine S) e [] fun r e' =>
      r.period = period ∧ ReadIn e' r.id period := by
  have updates : ∀ d, (prisma ctx (.readingUpdate id d)).Answers (engine S) e [] fun r e' =>
      r.period = period ∧ ReadIn e' r.id period := by
    intro d
    refine .last fun ws a ran => ?_
    obtain ⟨rfl, named, r, hr, same, -, -, was⟩ := updateReading_row ran
    have period : a.period = period :=
      was.trans (ReadIn.unique ⟨r, hr, same.symm.trans named, rfl⟩ stored)
    exact ⟨period, a, Table.mem_put.mpr (.inl rfl), rfl, period⟩
  unfold ReadingService.update ReadingService.getById
  rw [Prog.bind_assoc]
  refine Prog.Answers.query fun ws row ran => ?_
  obtain rfl : ws = [] := by
    cases ran
    rfl
  cases row with
  | none => exact .fail _
  | some row =>
    simp only [Prog.pure_eq, Prog.bind_ret]
    cases input.valueCurrent with
    | none => exact updates _
    | some valueCurrent =>
      dsimp only
      split
      · exact .fail _
      · exact updates _

end
end Leasing

/-! ## The browser -/

namespace WebAdmin
open Leasing ReadingsGrid

/-- A request that the grid has sent and not heard of. `mounted` says for which
mount of the grid, `since` (ghost) is the period that its answer is from. -/
structure Pending where
  mounted : Nat
  meterId : Id
  request : SaveRequest
  since : Period
  answer : Option (Except String GridReading) := none

/-- A request as it was sent (ghost), with the period that was on display. -/
structure Sent where
  meterId : Id
  displayed : Period
  request : SaveRequest
  deriving DecidableEq

structure Browser where
  server : Estate
  grid : Option ReadingsGrid := none
  mounts : Nat := 0
  pending : List Pending := []
  sent : List Sent := []

inductive Event where
  /-- The page is opened, or opened for another period or building, or refreshed. -/
  | visit (v : Visit)
  | edit (meterId : Id) (text : String)
  | save (meterId : Id)
  /-- The server takes a pending request. -/
  | handle (n : Nat) (newId : Id) (now : Instant)
  /-- The answer to a pending request arrives. -/
  | arrive (n : Nat)
  /-- A pending request fails on its way. -/
  | lose (n : Nat) (message : String)
  /-- Another client's call. -/
  | elsewhere (ctx : Ctx) (call : LeasingCall)

namespace Browser
variable (S : Server) (ctx : Ctx) (b : Browser)

/-- The element has no key: a grid that is there is kept. -/
def visit (v : Visit) : Browser :=
  match ReadingsPage ctx b.server v with
  | none => { b with grid := none }
  | some props =>
    match b.grid with
    | some g => { b with grid := some (g.rerender props) }
    | none => { b with grid := some (mount props), mounts := b.mounts + 1 }

def save (meterId : Id) : Browser :=
  match b.grid with
  | none => b
  | some g =>
    let saved := { b with grid := some (g.save meterId) }
    if g.Sends meterId then
      { saved with
        pending := b.pending ++ [{
          mounted := b.mounts, meterId := meterId, request := g.request meterId
          since := (g.since meterId).getD g.props.period }]
        sent := b.sent ++ [⟨meterId, g.props.period, g.request meterId⟩] }
    else saved

def handle (n : Nat) (newId : Id) (now : Instant) : Browser :=
  match b.pending[n]? with
  | some { mounted, meterId, request, since, answer := none } =>
    let (server, result) := action S ctx newId now b.server request
    { b with
      server := server
      pending := b.pending.set n ⟨mounted, meterId, request, since, some result⟩ }
  | _ => b

/-- The patch of an answer; a grid that is gone takes none. -/
def settle (n : Nat) (p : Pending) (result : Except String GridReading) : Browser :=
  { b with
    pending := b.pending.eraseIdx n
    grid := b.grid.map fun g =>
      if p.mounted = b.mounts then g.settle p.meterId p.since result else g }

def arrive (n : Nat) : Browser :=
  match b.pending[n]? with
  | some p =>
    match p.answer with
    | some result => b.settle n p result
    | none => b
  | none => b

def lose (n : Nat) (message : String) : Browser :=
  match b.pending[n]? with
  | some p => b.settle n p (.error message)
  | none => b

def next : Event → Browser
  | .visit v => b.visit ctx v
  | .edit meterId text => { b with grid := b.grid.map fun g => g.edit meterId text }
  | .save meterId => b.save meterId
  | .handle n newId now => b.handle S ctx n newId now
  | .arrive n => b.arrive n
  | .lose n message => b.lose n message
  | .elsewhere ctx call => { b with server := call.commit S ctx b.server }

end Browser

/-- The request creates a reading of the meter for the period that was on display,
or updates a reading of that period. -/
def Sent.Right (e : Estate) (x : Sent) : Prop :=
  match x.request with
  | .create meterId period _ => meterId = x.meterId ∧ period = x.displayed
  | .update id _ => ReadIn e id x.displayed

/-- A request that is sent for a row with a reading is sent while the period is on
display that was when the row got the reading. -/
def Event.InPlace (b : Browser) : Event → Prop
  | .save meterId => ∀ g ∈ b.grid, g.Sends meterId → ∀ p ∈ g.since meterId, p = g.props.period
  | .visit _ | .edit .. | .handle .. | .arrive _ | .lose .. | .elsewhere .. => True

/-! ## What stays with the rows -/

/-- The reading is one of the period, and the server has it so. -/
def GridReading.Of (e : Estate) (r : GridReading) (period : Period) : Prop :=
  r.period = period ∧ ReadIn e r.id period

def SaveRequest.Of (e : Estate) (period : Period) : SaveRequest → Prop
  | create _ period' _ => period' = period
  | update id _ => ReadIn e id period

structure Pending.Seeded (e : Estate) (p : Pending) : Prop where
  request : p.request.Of e p.since
  answer : ∀ reading, p.answer = some (.ok reading) → reading.Of e p.since

/-- The rows have readings of the periods that `since` says. -/
structure ReadingsGrid.Seeded (e : Estate) (g : ReadingsGrid) : Prop where
  since : ∀ m, g.since m = (g.row m).saved.map GridReading.period
  saved : ∀ m, ∀ r ∈ (g.row m).saved, ReadIn e r.id r.period

structure Browser.Seeded (b : Browser) : Prop where
  grid : ∀ g ∈ b.grid, g.Seeded b.server
  pending : ∀ p ∈ b.pending, p.Seeded b.server

section action
variable {S : Server} {ctx : Ctx} {newId : Id}
  {now : Instant} {e : Estate}

theorem action_keeps {id : Id} {period : Period} (h : ReadIn e id period) (x : SaveRequest) :
    ReadIn (action S ctx newId now e x).1 id period := by
  cases x with
  | create | update =>
    simp only [action]
    split
    · exact h
    · exact h.serve _

theorem answered_of {fallbackMessage : String} {period : Period} {p : Prog leasing ReadingRow}
    (answers : p.Answers (Leasing.engine S) e [] fun r e' =>
      r.period = period ∧ ReadIn e' r.id period) {reading : GridReading}
    (ok : (answered S e fallbackMessage p).2 = .ok reading) :
    reading.Of (answered S e fallbackMessage p).1 period := by
  simp only [answered] at ok ⊢
  split at ok
  · rename_i row ended
    cases ok
    exact answers.serve ended
  · cases ok

/-- An action answers with a reading of the period that the request is for. -/
theorem action_of {x : SaveRequest} {period : Period} (of : x.Of e period) {reading : GridReading}
    (ok : (action S ctx newId now e x).2 = .ok reading) :
    reading.Of (action S ctx newId now e x).1 period := by
  cases x with
  | create meterId displayed valueCurrent =>
    obtain rfl : displayed = period := of
    simp only [action] at ok ⊢
    split at ok
    · cases ok
    · exact answered_of (create_answers _ _ _) ok
  | update id valueCurrent =>
    simp only [action] at ok ⊢
    split at ok
    · cases ok
    · exact answered_of (update_answers _ of) ok

end action

section grid
variable {e e' : Estate} {g : ReadingsGrid}

theorem SaveRequest.Of.mono {period : Period} {x : SaveRequest} (of : x.Of e period)
    (keeps : ∀ id period, ReadIn e id period → ReadIn e' id period) : x.Of e' period := by
  cases x with
  | create => exact of
  | update => exact keeps _ _ of

theorem Pending.Seeded.mono {p : Pending} (seeded : p.Seeded e)
    (keeps : ∀ id period, ReadIn e id period → ReadIn e' id period) : p.Seeded e' where
  request := seeded.request.mono keeps
  answer r answered := ⟨(seeded.answer r answered).1, keeps _ _ (seeded.answer r answered).2⟩

theorem ReadingsGrid.Seeded.mono (seeded : g.Seeded e)
    (keeps : ∀ id period, ReadIn e id period → ReadIn e' id period) : g.Seeded e' where
  since := seeded.since
  saved m r hr := keeps _ _ (seeded.saved m r hr)

/-- The server has moved on. -/
theorem Browser.Seeded.mono {b : Browser} (seeded : b.Seeded) (e' : Estate)
    (keeps : ∀ id period, ReadIn b.server id period → ReadIn e' id period) :
    ({ b with server := e' } : Browser).Seeded where
  grid g hg := (seeded.grid g hg).mono keeps
  pending p hp := (seeded.pending p hp).mono keeps

/-- A patch that leaves `saved` alone. -/
theorem ReadingsGrid.Seeded.updateRow (seeded : g.Seeded e) (m : Id) (patch : RowState → RowState)
    (alone : ∀ row, (patch row).saved = row.saved) : (g.updateRow m patch).Seeded e := by
  have saved : ∀ m', ((g.updateRow m patch).row m').saved = (g.row m').saved := by
    intro m'
    rw [row_updateRow]
    split
    · rename_i same
      rw [alone, same]
    · rfl
  constructor
  · intro m'
    rw [saved]
    exact seeded.since m'
  · intro m'
    rw [saved]
    exact seeded.saved m'

theorem ReadingsGrid.Seeded.edit (seeded : g.Seeded e) (m : Id) (text : String) :
    (g.edit m text).Seeded e := by
  unfold ReadingsGrid.edit
  split
  · exact seeded.updateRow m _ fun _ => rfl
  · exact seeded

theorem ReadingsGrid.Seeded.save (seeded : g.Seeded e) (m : Id) : (g.save m).Seeded e := by
  unfold ReadingsGrid.save
  split
  · exact seeded.updateRow m _ fun _ => rfl
  split
  · exact seeded.updateRow m _ fun _ => rfl
  · exact seeded

theorem ReadingsGrid.Seeded.settle (seeded : g.Seeded e) (m : Id) {since : Period}
    {result : Except String GridReading} (of : ∀ r, result = .ok r → r.Of e since) :
    (g.settle m since result).Seeded e := by
  cases result with
  | error message =>
    exact seeded.updateRow m (fun row => { row with status := .error, error := some message })
      fun _ => rfl
  | ok reading =>
    obtain ⟨rfl, stored⟩ := of reading rfl
    have row : ∀ m', (g.settle m reading.period (.ok reading)).row m' =
        if m' = m then ⟨reading.valueCurrent, some reading, .saved, none⟩ else g.row m' :=
      fun m' => row_updateRow g m m' fun _ => ⟨reading.valueCurrent, some reading, .saved, none⟩
    constructor
    · intro m'
      rw [row]
      by_cases same : m' = m
      · simp [ReadingsGrid.settle, same]
      · simpa [ReadingsGrid.settle, same] using seeded.since m'
    · intro m'
      rw [row]
      by_cases same : m' = m
      · simpa [same] using stored
      · simpa [same] using seeded.saved m'

theorem mount_seeded {ctx : Ctx} {v : Visit} {props : ReadingsGridProps}
    (shown : ReadingsPage ctx e v = some props) : (mount props).Seeded e := by
  have listed : ∀ m r, readingByMeterId props.readings m = some r → r.Of e props.period := by
    intro m r found
    have mem := (List.mem_filter.mp (List.mem_of_getLast? found)).1
    unfold ReadingsPage at shown
    dsimp only at shown
    split at shown
    · cases shown
      obtain ⟨row, hrow, rfl⟩ := List.mem_map.mp mem
      obtain ⟨stored, asked⟩ := List.mem_filter.mp hrow
      obtain ⟨-, period, -⟩ := of_decide_eq_true asked
      exact ⟨period, row, stored, rfl, period⟩
    · cases shown
  have saved : ∀ m, ((mount props).row m).saved = if m ∈ props.meters then
      readingByMeterId props.readings m else none := by
    intro m
    by_cases here : m ∈ props.meters
    · cases found : readingByMeterId props.readings m <;>
        simp [row, mount, initialRow, emptyRow, here, found]
    · simp [row, mount, emptyRow, here]
  constructor
  · intro m
    rw [saved]
    cases found : readingByMeterId props.readings m with
    | none => simp [mount, found]
    | some r =>
      have period := (listed m r found).1
      simp only [mount, found]
      split <;> simp [period]
  · intro m r hr
    rw [saved] at hr
    split at hr
    · obtain ⟨period, stored⟩ := listed m r hr
      exact period ▸ stored
    · cases hr

/-- A request is for the period that was on display when its row got its reading,
or else for the one on display now. -/
theorem ReadingsGrid.Seeded.request (seeded : g.Seeded e) (m : Id) :
    (g.request m).Of e ((g.since m).getD g.props.period) := by
  unfold ReadingsGrid.request
  rw [seeded.since]
  split
  · rename_i saved found
    rw [found]
    exact seeded.saved m saved found
  · rename_i none
    rw [none]
    rfl

end grid

/-! ## Runs -/

namespace Browser
section next
variable {S : Server} {ctx : Ctx} {b : Browser}

theorem Seeded.visit (seeded : b.Seeded) (v : Visit) : (b.visit ctx v).Seeded := by
  unfold Browser.visit
  split
  · exact ⟨fun _ gone => (nomatch gone), seeded.pending⟩
  · rename_i props shown
    cases shownNow : b.grid with
    | none =>
      refine ⟨fun g hg => ?_, seeded.pending⟩
      cases hg
      exact mount_seeded shown
    | some g =>
      refine ⟨fun g' hg' => ?_, seeded.pending⟩
      cases hg'
      exact ⟨(seeded.grid g shownNow).since, (seeded.grid g shownNow).saved⟩

theorem Seeded.save (seeded : b.Seeded) (m : Id) : (b.save m).Seeded := by
  unfold Browser.save
  split
  · exact seeded
  · rename_i g shown
    have here := seeded.grid g shown
    have saved : ∀ g' ∈ some (g.save m), g'.Seeded b.server := by
      intro g' hg'
      cases hg'
      exact here.save m
    dsimp only
    split
    · refine ⟨saved, fun p hp => ?_⟩
      cases List.mem_append.mp hp with
      | inl old => exact seeded.pending p old
      | inr new =>
        rw [List.mem_singleton.mp new]
        exact ⟨here.request m, fun _ answered => nomatch answered⟩
    · exact ⟨saved, seeded.pending⟩

/-- No event moves a reading to another period. -/
theorem next_keeps {id : Id} {period : Period} (h : ReadIn b.server id period) (a : Event) :
    ReadIn (b.next S ctx a).server id period := by
  cases a with
  | visit v =>
    simp only [next, visit]
    split
    · exact h
    · split <;> exact h
  | edit => exact h
  | save m =>
    simp only [next, Browser.save]
    split
    · exact h
    · split <;> exact h
  | handle n newId now =>
    simp only [next, handle]
    split
    · exact action_keeps h _
    · exact h
  | arrive n =>
    simp only [next, arrive]
    split
    · split <;> exact h
    · exact h
  | lose n message =>
    simp only [next, lose]
    split <;> exact h
  | elsewhere ctx' call => exact h.commit call

theorem Seeded.handle (seeded : b.Seeded) (n : Nat) (newId : Id) (now : Instant) :
    (b.handle S ctx n newId now).Seeded := by
  unfold Browser.handle
  split
  · rename_i mounted m request since waiting
    have asked := (seeded.pending _ (List.mem_of_getElem? waiting)).request
    have keeps : ∀ id period, ReadIn b.server id period →
        ReadIn (action S ctx newId now b.server request).1 id period :=
      fun _ _ h => action_keeps h request
    have moved := seeded.mono _ keeps
    refine ⟨moved.grid, fun p hp => ?_⟩
    cases List.mem_or_eq_of_mem_set hp with
    | inl old => exact moved.pending p old
    | inr new =>
      subst new
      refine ⟨asked.mono keeps, fun reading answered => ?_⟩
      exact action_of asked (Option.some.inj answered)
  · exact seeded

theorem Seeded.settle (seeded : b.Seeded) (n : Nat) {p : Pending}
    {result : Except String GridReading} (of : ∀ r, result = .ok r → r.Of b.server p.since) :
    (b.settle n p result).Seeded := by
  refine ⟨fun g hg => ?_, fun p hp => seeded.pending p (List.mem_of_mem_eraseIdx hp)⟩
  obtain ⟨g', shown, rfl⟩ := Option.map_eq_some_iff.mp hg
  split
  · exact (seeded.grid g' shown).settle _ of
  · exact seeded.grid g' shown

theorem Seeded.next (seeded : b.Seeded) (a : Event) :
    (b.next S ctx a).Seeded := by
  cases a with
  | visit v => exact seeded.visit v
  | edit m text =>
    refine ⟨fun g hg => ?_, seeded.pending⟩
    obtain ⟨g', shown, rfl⟩ := Option.map_eq_some_iff.mp hg
    exact (seeded.grid g' shown).edit m text
  | save m => exact seeded.save m
  | handle n newId now => exact seeded.handle n newId now
  | arrive n =>
    simp only [Browser.next, arrive]
    split
    · rename_i p waiting
      split
      · rename_i result answered
        refine seeded.settle n fun r ok => ?_
        exact (seeded.pending p (List.mem_of_getElem? waiting)).answer r (ok ▸ answered)
      · exact seeded
    · exact seeded
  | lose n message =>
    simp only [Browser.next, lose]
    split
    · exact seeded.settle n fun r ok => nomatch ok
    · exact seeded
  | elsewhere ctx' call => exact seeded.mono _ fun _ _ h => h.commit call

/-- A request is right exactly if it is sent in place. -/
theorem save_right (seeded : b.Seeded) (m : Id) {g : ReadingsGrid} (shown : b.grid = some g) :
    Sent.Right b.server ⟨m, g.props.period, g.request m⟩ ↔
      ∀ p ∈ g.since m, p = g.props.period := by
  have here := seeded.grid g shown
  rw [here.since]
  unfold ReadingsGrid.request Sent.Right
  cases found : (g.row m).saved with
  | none => simp
  | some saved =>
    have stored := here.saved m saved found
    constructor
    · intro displayed p hp
      cases hp
      exact stored.unique displayed
    · intro place
      have period : saved.period = g.props.period := place saved.period rfl
      exact period ▸ stored

theorem visit_sent (v : Visit) : (b.visit ctx v).sent = b.sent := by
  unfold visit
  split
  · rfl
  · split <;> rfl

theorem handle_sent (n : Nat) (newId : Id) (now : Instant) :
    (b.handle S ctx n newId now).sent = b.sent := by
  unfold handle
  split <;> rfl

theorem arrive_sent (n : Nat) : (b.arrive n).sent = b.sent := by
  unfold arrive
  split
  · split <;> rfl
  · rfl

theorem lose_sent (n : Nat) (message : String) : (b.lose n message).sent = b.sent := by
  unfold lose
  split <;> rfl

/-- **One event** leaves all requests right exactly if it is in place. -/
theorem next_right (seeded : b.Seeded) (right : ∀ x ∈ b.sent, x.Right b.server) (a : Event) :
    (∀ x ∈ (b.next S ctx a).sent,
      x.Right (b.next S ctx a).server) ↔ a.InPlace b := by
  have kept : ∀ x ∈ b.sent, x.Right (b.next S ctx a).server := by
    intro x hx
    have before := right x hx
    unfold Sent.Right at before ⊢
    split at before
    · exact before
    · exact next_keeps before a
  cases a with
  | visit v => exact iff_of_true (fun x hx => kept x (visit_sent v ▸ hx)) trivial
  | handle n newId now =>
    exact iff_of_true (fun x hx => kept x (handle_sent n newId now ▸ hx)) trivial
  | arrive n => exact iff_of_true (fun x hx => kept x (arrive_sent n ▸ hx)) trivial
  | lose n message => exact iff_of_true (fun x hx => kept x (lose_sent n message ▸ hx)) trivial
  | edit | elsewhere => exact iff_of_true kept trivial
  | save m =>
    simp only [Event.InPlace, Browser.next, Browser.save]
    cases shown : b.grid with
    | none => simpa using right
    | some g =>
      by_cases sends : g.Sends m
      · simp only [if_pos sends, List.forall_mem_append, List.forall_mem_singleton]
        have place := save_right seeded m shown
        constructor
        · rintro ⟨-, last⟩ g' hg' -
          cases hg'
          exact place.mp last
        · intro inPlace
          exact ⟨right, place.mpr (inPlace g rfl sends)⟩
      · simp only [if_neg sends]
        refine iff_of_true right fun g' hg' sends' => ?_
        cases hg'
        exact absurd sends' sends

end next

/-- **The grid saves into the period it shows** exactly as long as a row that has a
reading is saved only while the period is on display that was when it got it. -/
theorem saves_displayed_iff (S : Server) (ctx : Ctx) (server : Estate) (events : List Event) :
    (∀ b ∈ states (next S ctx) { server := server } events,
      ∀ x ∈ b.sent, x.Right b.server) ↔
    Throughout (next S ctx) (fun b a => a.InPlace b) { server := server } events :=
  states_iff (I := Seeded) (P := fun _ _ => True) (fun _ a seeded _ => seeded.next a)
    (fun _ a seeded right _ => next_right seeded right a)
    ⟨fun _ gone => (nomatch gone), fun _ gone => (nomatch gone)⟩ (fun _ gone => (nomatch gone))
    (throughout_true _ _ _)

end Browser

namespace Demo

def may : Period := ⟨2026, 5, by decide⟩

def visit (period : Period) : Event := .visit ⟨period, fun _ => true, fun _ => true, true⟩

/-- The grid saves a meter's reading for April, stays as the page moves on to May,
and saves what the meter shows then. -/
def monthly : List Event :=
  [.elsewhere Dormitory.Demo.ctx (.createMeter 401 ⟨201, .electric, none, "kWh", ⟨8, 0⟩⟩),
    visit Dormitory.Demo.april, .edit 401 "250.00", .save 401, .handle 0 601 0, .arrive 0,
    visit may, .edit 401 "310.00", .save 401]

end Demo

open Dormitory.Demo in
/-- What is entered for May goes to the reading of April. -/
theorem may_saved_as_april :
    ∃ b ∈ states (Browser.next server ctx) { server := Leasing.Demo.vacant } Demo.monthly,
      ∃ x ∈ b.sent, x = ⟨401, Demo.may, .update 601 "310.00"⟩ ∧ ReadIn b.server 601 april ∧
        ¬ x.Right b.server := by
  refine ⟨_, last_mem_states _ _ _, ⟨401, Demo.may, .update 601 "310.00"⟩, ?_, rfl, ?_, ?_⟩
  · decide +kernel
  · decide +kernel
  · intro right
    have stored : ReadIn (Demo.monthly.foldl (Browser.next server ctx)
        { server := Leasing.Demo.vacant }).server 601 april := by decide +kernel
    exact absurd (stored.unique right) (by decide)

end WebAdmin
end Dormitory
