import Mathlib.Data.List.Chain
import Dormitory.Rollup

/-!
# The invoice's states under interleaving

`issue`, `void` and the rollup of `confirm` each decide on a status they read
earlier and then write by id alone. The committed status keeps to the state
machine as long as no such UPDATE runs after another request has committed
`void` or `paid` behind its guard's back.
-/

namespace Dormitory
open Txn PaymentService

/-- The statuses that may follow. -/
def InvoiceStatus.next : InvoiceStatus → List InvoiceStatus
  | .draft => [.issued, .void]
  | .issued => [.partially_paid, .paid, .void]
  | .partially_paid => [.paid, .void]
  | .paid | .void | .overdue => []

/-- The committed status moved from `earlier` to `later`, or stayed. -/
def Moved (c invoiceId : Id) (later earlier : Db) : Prop :=
  ∀ i, earlier.invoice? c invoiceId = some i →
    ∃ j, later.invoice? c invoiceId = some j ∧ (j.status = i.status ∨ j.status ∈ i.status.next)

/-! ## Outdated guards -/

def Query.move? : Query → Option (Id × InvoicePatch)
  | .invoiceUpdate id patch => some (id, patch)
  | _ => none

/-- An UPDATE of the invoice, by a request that has read `seen`: the committed
status is the one its guard read, or neither `void` nor `paid`, or the one that
it writes anyway. -/
def GuardHolds (c invoiceId : Id) (db : Db) (seen : Seen) (s : Statement) : Prop :=
  ∀ d ∈ s.query.move?, d.1 = invoiceId → ∀ j ∈ db.invoice? c invoiceId,
    ∀ read ∈ seen, read.1 = ⟨c, .invoiceFindUnique invoiceId⟩ →
      ∀ i ∈ read.2.invoice? c invoiceId,
        j.status = i.status ∨ (j.status ≠ .void ∧ j.status ≠ .paid) ∨ j.status = d.2.status

instance (c invoiceId : Id) (db : Db) (seen : Seen) (s : Statement) :
    Decidable (GuardHolds c invoiceId db seen s) :=
  inferInstanceAs (Decidable (∀ d ∈ s.query.move?, d.1 = invoiceId → ∀ j ∈ db.invoice? c invoiceId,
    ∀ read ∈ seen, read.1 = ⟨c, .invoiceFindUnique invoiceId⟩ →
      ∀ i ∈ read.2.invoice? c invoiceId, _ ∨ _))

section guards
variable {ι α : Type}

/-- No UPDATE of the invoice runs with an outdated guard. -/
def GuardsHold (c invoiceId : Id) (cfg : Config billing ι α) (a : Action ι) : Prop :=
  ∀ e ∈ cfg.executes a, GuardHolds c invoiceId cfg.db e.2.trace e.1

instance (c invoiceId : Id) (cfg : Config billing ι α) (a : Action ι) :
    Decidable (GuardsHold c invoiceId cfg a) :=
  inferInstanceAs (Decidable (∀ e ∈ cfg.executes a, _))

def ExecsGuarded (c invoiceId : Id) (w : World billing ι Stage) : Event billing ι → Prop
  | .exec t s => ∀ l, w.live t = some l → GuardHolds c invoiceId w.db l.trace s
  | _ => True

theorem GuardsHold.shows {S : Server} {c invoiceId : Id} {cfg : Config billing ι α}
    {w : World billing ι Stage} {a : Action ι} {e : Event billing ι}
    (refines : Refines (engine S) (verbs c) cfg w) (guards : GuardsHold c invoiceId cfg a)
    (shows : Shows cfg a e) : ExecsGuarded c invoiceId w e := by
  cases e with
  | commit | emit | drop => trivial
  | exec t s =>
    intro l here
    have := guards _ (refines.shows_exec shows here)
    rwa [refines.db] at this

end guards

/-! ## Sums only grow -/

section sums
variable (c invoiceId : Id)

/-- What a payment adds to the sum. -/
def share (p : Payment) : Int :=
  if p.companyId = c ∧ p.invoiceId = invoiceId ∧ p.status = .confirmed then p.amount.units else 0

theorem Db.paid_eq (db : Db) : db.paid c invoiceId = db.payments.total (share c invoiceId) := by
  unfold Db.paid Db.confirmedPayments Table.total
  induction db.payments.rows with
  | nil => rfl
  | cons p ps ih =>
    by_cases counts : p.companyId = c ∧ p.invoiceId = invoiceId ∧ p.status = .confirmed
    · rw [List.filter_cons_of_pos (by simpa using counts), List.map_cons, List.sum_cons, ih,
        List.map_cons, List.sum_cons, share, if_pos counts]
    · rw [List.filter_cons_of_neg (by simpa using counts), ih, List.map_cons, List.sum_cons, share,
        if_neg counts, zero_add]

/-- What the payment that a request has written adds to the committed sum. -/
def Stage.gain (m : Stage) (db : Db) : Int :=
  match m.payment with
  | some q => share c invoiceId q - (db.payments.find? q.id).elim 0 (share c invoiceId)
  | none => 0

theorem Stage.view_paid (m : Stage) (db : Db) :
    (m.rows.foldl Row.apply db).paid c invoiceId =
      db.paid c invoiceId + m.gain c invoiceId db := by
  rw [Db.paid_eq, Db.paid_eq, m.view_payments db, Stage.gain]
  cases m.payment with
  | none => simp
  | some q =>
    have put := Table.total_put db.payments q (share c invoiceId)
    simp only [key_payment] at put
    simp only [put]
    omega

variable {c invoiceId} {db : Db} {l : Live billing Stage}

theorem Fits.gain_nonneg (h : Fits c db l)
    (positive : ∀ p ∈ db.payments.rows, p.companyId = c → p.invoiceId = invoiceId →
      0 < p.amount.units)
    (confirmed : ∀ q, l.stage.payment = some q → q.status = .confirmed) :
    0 ≤ l.stage.gain c invoiceId db := by
  unfold Stage.gain
  cases own : l.stage.payment with
  | none => exact le_refl 0
  | some q =>
    obtain ⟨p, patch, found, rfl⟩ := h.payment q own
    have status := confirmed _ own
    obtain ⟨found, company⟩ := Db.payment?_some.1 found
    have amount := positive p (Table.find?_mem found)
    simp only [found, Option.elim, share, PaymentPatch.apply_companyId,
      PaymentPatch.apply_invoiceId,
      PaymentPatch.apply_amount, status, and_true]
    by_cases here : p.companyId = c ∧ p.invoiceId = invoiceId
    · have := amount here.1 here.2
      by_cases already : p.status = .confirmed
      · simp [here, already]
      · simp only [here, already, and_self, and_false, if_true, if_false]
        omega
    · have : ¬ (p.companyId = c ∧ p.invoiceId = invoiceId ∧ p.status = .confirmed) :=
        fun h => here ⟨h.1, h.2.1⟩
      simp [here, this]

end sums

/-! ## The invariant -/

section invariant
variable {S : Server} {c invoiceId : Id} {ι : Type} {db db' : Db} {l : Live billing Stage}

def Db.NoPayments (db : Db) (c invoiceId : Id) : Prop :=
  ∀ p ∈ db.payments.rows, p.companyId = c → p.invoiceId ≠ invoiceId

/-- What single calls keep true of an invoice: a draft has no payments, one
that was rolled up has some, and a paid one is paid in full. -/
structure Db.Lawful (db : Db) (c invoiceId : Id) : Prop where
  positive : ∀ p ∈ db.payments.rows, p.companyId = c → p.invoiceId = invoiceId → 0 < p.amount.units
  known : ∀ i, db.invoice? c invoiceId = some i → i.status ≠ .overdue
  draft : ∀ i, db.invoice? c invoiceId = some i → i.status = .draft → db.NoPayments c invoiceId
  rolledUp : ∀ i, db.invoice? c invoiceId = some i → i.status = .paid ∨ i.status = .partially_paid →
    ¬ db.NoPayments c invoiceId
  paid : ∀ i, db.invoice? c invoiceId = some i → i.status = .paid →
    i.total.units ≤ db.paid c invoiceId

/-- The guard has read `i`. -/
def Saw (c invoiceId : Id) (seen : Seen) (i : Invoice) : Prop :=
  ∃ v, (⟨c, .invoiceFindUnique invoiceId⟩, v) ∈ seen ∧ v.invoice? c invoiceId = some i

/-- What a live request knows about the invoice. -/
def Knows (c invoiceId : Id) (db : Db) (l : Live billing Stage) : Prop :=
  match l.stage with
  | .start v => ∀ id reason, v ≠ .reject id reason
  | .deciding _ patch => patch.status = .confirmed
  | .rolling _ => True
  | .summing q i => q.invoiceId = invoiceId → Saw c invoiceId l.trace i ∧
    db.HasTotal c invoiceId i.total ∧ i.status ≠ .draft ∧ i.status ≠ .overdue ∧
    (i.status = .paid → i.total.units ≤ db.paid c invoiceId)
  | .issuing id i => id = invoiceId → Saw c invoiceId l.trace i ∧ db.NoPayments c invoiceId
  | .moving (some _) id i patch => id = invoiceId → Saw c invoiceId l.trace i ∧
    db.HasTotal c invoiceId i.total ∧ (i.status = .issued ∨ i.status = .partially_paid) ∧
    (patch.status = .paid → i.total.units ≤ db.paid c invoiceId + l.stage.gain c invoiceId db)
  | .moving none id i patch => id = invoiceId → Saw c invoiceId l.trace i ∧ i.status ≠ .overdue ∧
    (patch.status = .issued → db.NoPayments c invoiceId)
  | .closing q r => (∀ q', q = some q' → q'.status = .confirmed) ∧
    ∀ r', r = some r' → r'.id = invoiceId →
      (∃ j, db.invoice? c invoiceId = some j ∧ (r'.status = j.status ∨ r'.status ∈ j.status.next)) ∧
      (r'.status = .paid → r'.total.units ≤ db.paid c invoiceId + l.stage.gain c invoiceId db)

theorem Knows.confirmed (h : Knows c invoiceId db l) (coherent : l.stage.Coherent) :
    ∀ q, l.stage.payment = some q → q.status = .confirmed := by
  intro q hq
  obtain ⟨stage, ws, tr⟩ := l
  cases stage with
  | start | deciding | issuing => cases hq
  | rolling => cases hq; exact coherent
  | summing => cases hq; exact coherent.1
  | moving => cases hq; exact coherent.1
  | closing => exact h.1 q hq

theorem Fits.noPayments (fits : Fits c db l) :
    (l.stage.rows.foldl Row.apply db).NoPayments c invoiceId ↔ db.NoPayments c invoiceId := by
  constructor
  · intro h y hy company invoice
    obtain ⟨x, hx, same⟩ := fits.after hy
    exact h x hx (same.companyId.trans company) (same.invoiceId.trans invoice)
  · intro h x hx company invoice
    obtain ⟨y, hy, same⟩ := fits.before hx
    exact h y hy (same.companyId.symm.trans company) (same.invoiceId.symm.trans invoice)

/-- A request that has written a payment of the invoice shows that it has one. -/
theorem Fits.paying (fits : Fits c db l) {q : Payment} (hq : l.stage.payment = some q) :
    ¬ db.NoPayments c q.invoiceId := by
  obtain ⟨p, patch, found, rfl⟩ := fits.payment q hq
  obtain ⟨found, company⟩ := Db.payment?_some.1 found
  exact fun h => h p (Table.find?_mem found) company rfl

/-- The commits of others leave what a request knows. -/
theorem Knows.later (h : Knows c invoiceId db l)
    (totals : ∀ j, db.invoice? c invoiceId = some j → db'.HasTotal c invoiceId j.total)
    (unpaid : db.NoPayments c invoiceId → db'.NoPayments c invoiceId)
    (grows : db.paid c invoiceId ≤ db'.paid c invoiceId)
    (own : l.stage.gain c invoiceId db' = l.stage.gain c invoiceId db)
    (locked : ∀ r, l.stage.invoice = some r → r.id = invoiceId →
      db'.invoice? c invoiceId = db.invoice? c invoiceId) : Knows c invoiceId db' l := by
  have keep : ∀ {total : Numeric 10 2}, db.HasTotal c invoiceId total →
    db'.HasTotal c invoiceId total := by
    rintro _ ⟨j, found, rfl⟩
    exact totals j found
  obtain ⟨stage, ws, tr⟩ := l
  cases stage with
  | start | deciding | rolling => exact h
  | summing q i =>
    intro here
    obtain ⟨saw, total, draft, overdue, paid⟩ := h here
    exact ⟨saw, keep total, draft, overdue, fun e => (paid e).trans grows⟩
  | issuing id i => exact fun here => ⟨(h here).1, unpaid (h here).2⟩
  | moving q id i patch =>
    cases q with
    | none => exact fun here => ⟨(h here).1, (h here).2.1, fun e => unpaid ((h here).2.2 e)⟩
    | some q =>
      intro here
      obtain ⟨saw, total, status, paid⟩ := h here
      refine ⟨saw, keep total, status, fun e => ?_⟩
      have := paid e
      simp only at own this ⊢
      omega
  | closing q r =>
    refine ⟨h.1, fun r' hr here => ?_⟩
    obtain ⟨⟨j, found, moved⟩, paid⟩ := h.2 r' hr here
    refine ⟨⟨j, (locked r' hr here).trans found, moved⟩, fun e => ?_⟩
    have := paid e
    simp only at own this ⊢
    omega

instance forallStatusDecidable (P : InvoiceStatus → Prop) [DecidablePred P] :
    Decidable (∀ status, P status) :=
  decidable_of_iff (P .draft ∧ P .issued ∧ P .partially_paid ∧ P .paid ∧ P .void ∧ P .overdue)
    ⟨fun ⟨draft, issued, partially_paid, paid, void, overdue⟩ status => by
      cases status <;> assumption,
    fun all => ⟨all _, all _, all _, all _, all _, all _⟩⟩

/-- An UPDATE whose guard holds moves the status on. -/
theorem Knows.moves (lawful : db.Lawful c invoiceId) (coherent : l.stage.Coherent)
    (h : Knows c invoiceId db l) (q : Option Payment) (i j : Invoice) (patch : InvoicePatch)
    (stage : l.stage = .moving q invoiceId i patch) (fits : Fits c db l)
    (found : db.invoice? c invoiceId = some j)
    (guard : GuardHolds c invoiceId db l.trace ⟨c, .invoiceUpdate invoiceId patch⟩) :
    patch.status = j.status ∨ patch.status ∈ j.status.next := by
  have overdue := lawful.known j found
  rw [stage] at coherent
  cases q with
  | some q =>
    simp only [Knows, stage] at h
    obtain ⟨⟨v, read, saw⟩, -, status, -⟩ := h trivial
    obtain ⟨-, own, -, -, rolled, new⟩ := coherent
    have paying : ¬ db.NoPayments c invoiceId := by
      rw [own]
      exact fits.paying (by rw [stage]; rfl)
    have draft : j.status ≠ .draft := fun e => paying (lawful.draft j found e)
    have guard := guard (invoiceId, patch) rfl rfl j found _ read rfl i saw
    revert overdue status rolled new draft guard
    generalize j.status = a, i.status = b, patch.status = p
    revert a b p
    decide +kernel
  | none =>
    simp only [Knows, stage] at h
    obtain ⟨⟨v, read, saw⟩, known, unpaid⟩ := h trivial
    obtain ⟨-, verb⟩ := coherent
    have rolled : patch.status = .issued → j.status ≠ .partially_paid :=
      fun e e' => lawful.rolledUp j found (.inr e') (unpaid e)
    have guard := guard (invoiceId, patch) rfl rfl j found _ read rfl i saw
    revert overdue known verb rolled guard
    generalize j.status = a, i.status = b, patch.status = p
    revert a b p
    decide +kernel

theorem Saw.mono {seen seen' : Seen} {i : Invoice} (h : Saw c invoiceId seen i) :
    Saw c invoiceId (seen ++ seen') i := by
  obtain ⟨v, read, saw⟩ := h
  exact ⟨v, List.mem_append_left _ read, saw⟩

/-- A statement keeps what its request knows. -/
theorem Knows.exec (lawful : db.Lawful c invoiceId) (fits : Fits c db l)
    (coherent : l.stage.Coherent) (h : Knows c invoiceId db l) {s : Statement} {ws : List Row}
    {m : Stage} (does : Does c l.stage s (l.view (engine S) db) ws m)
    (guard : GuardHolds c invoiceId db l.trace s) :
    Knows c invoiceId db ⟨m, l.writes ++ ws, l.trace ++ [(s, l.view (engine S) db)]⟩ := by
  have confirmed := h.confirmed coherent
  have moves := Knows.moves lawful coherent h
  have view := fits.view (S := S)
  have sees : ∀ {i : Invoice}, l.stage.invoice = none →
      (l.view (engine S) db).invoice? c invoiceId = some i → db.invoice? c invoiceId = some i := by
    intro i none found
    rw [view, Stage.view_invoice?, none] at found
    exact found
  obtain ⟨stage, ws', tr⟩ := l
  simp only at does view coherent confirmed sees
  have last : ∀ {i : Invoice}, s = ⟨c, .invoiceFindUnique invoiceId⟩ → stage.invoice = none →
      (Live.view (engine S) db ⟨stage, ws', tr⟩).invoice? c invoiceId = some i →
      Saw c invoiceId (tr ++ [(s, Live.view (engine S) db ⟨stage, ws', tr⟩)]) i := by
    rintro i rfl none found
    exact ⟨_, List.mem_append_right _ (List.mem_singleton_self _), found⟩
  cases does with
  | pending asks found status =>
    cases asks with
    | confirm => rfl
    | reject id reason => exact absurd rfl (h _ _)
  | confirm found => trivial
  | reject found rejected =>
    have confirmed : _ = PaymentStatus.confirmed := h
    rw [rejected] at confirmed
    cases confirmed
  | @roll q v i found alive =>
    rintro rfl
    have stored := sees rfl found
    have paying : ¬ db.NoPayments c q.invoiceId := fits.paying rfl
    exact ⟨last rfl rfl found, ⟨i, stored, rfl⟩, fun e => paying (lawful.draft i stored e),
      lawful.known i stored, lawful.paid i stored⟩
  | @sum q i v next calls new =>
    rintro rfl
    obtain ⟨saw, total, draft, overdue, paid⟩ := h rfl
    have positive := fits.positive lawful.positive
    have gain := fits.gain_nonneg lawful.positive confirmed
    have sum := Stage.view_paid c q.invoiceId (.summing q i) db
    simp only at gain
    rw [view, nextStatus_eq i.total (confirmedPayments_amounts positive)] at calls
    change (if i.total.units ≤ Db.paid (List.foldl Row.apply db _) c q.invoiceId then
      some InvoiceStatus.paid else if 0 < Db.paid (List.foldl Row.apply db _) c q.invoiceId then
      some .partially_paid else none) = some next at calls
    rw [sum] at calls
    refine ⟨saw.mono, total, ?_, fun e => ?_⟩
    · have unpaid : i.status ≠ .paid := by
        intro e
        have enough := paid e
        rw [if_pos (by omega)] at calls
        exact new ((Option.some.inj calls).symm.trans e.symm)
      have alive := coherent.2.2
      revert draft overdue alive unpaid
      cases i.status <;> decide
    · change i.total.units ≤ db.paid c q.invoiceId + Stage.gain c q.invoiceId (.summing q i) db
      by_contra less
      rw [if_neg less] at calls
      have : next = .paid := e
      split at calls <;> simp [this] at calls
  | @draft now id v i found draft =>
    rintro rfl
    exact ⟨last rfl rfl found, lawful.draft i (sees rfl found) draft⟩
  | company issued =>
    rintro rfl
    obtain ⟨saw, unpaid⟩ := h rfl
    exact ⟨saw.mono, by simp [coherent.2], fun _ => unpaid⟩
  | @alive id v i found alive =>
    rintro rfl
    exact ⟨last rfl rfl found, lawful.known i (sees rfl found), fun e => by cases e⟩
  | @move q id i patch v j found =>
    refine ⟨confirmed, fun r hr here => ?_⟩
    cases hr
    have own : id = invoiceId := (Db.invoice?_id found).symm.trans here
    subst own
    have stored := sees rfl found
    refine ⟨⟨j, stored, moves q i j patch rfl fits stored guard⟩, fun e => ?_⟩
    cases q with
    | none =>
      rcases coherent.2 with ⟨-, status⟩ | ⟨-, status⟩ <;> simp [status] at e
    | some q =>
      obtain ⟨-, ⟨j', stored', total⟩, -, paid⟩ := h rfl
      rw [stored] at stored'
      cases stored'
      have := paid e
      rw [← total] at this
      exact this
  | close =>
    refine ⟨confirmed, fun r hr here => ?_⟩
    cases stage with
    | closing q r' => exact h.2 r hr here
    | _ => cases hr

/-- A COMMIT keeps the invoice lawful and moves its status on. -/
theorem Knows.commit (lawful : db.Lawful c invoiceId) (fits : Fits c db l)
    (coherent : l.stage.Coherent) (h : Knows c invoiceId db l)
    (closing : ∃ q r, l.stage = .closing q r) :
    (l.stage.rows.foldl Row.apply db).Lawful c invoiceId ∧
      Moved c invoiceId (l.stage.rows.foldl Row.apply db) db := by
  have positive := fits.positive lawful.positive
  have gain := fits.gain_nonneg lawful.positive (h.confirmed coherent)
  have sum := Stage.view_paid c invoiceId l.stage db
  have payments : (l.stage.rows.foldl Row.apply db).NoPayments c invoiceId ↔
      db.NoPayments c invoiceId := fits.noPayments
  obtain ⟨q, r, closing⟩ := closing
  have h := h
  simp only [Knows, closing] at h
  by_cases wrote : ∃ r', r = some r' ∧ r'.id = invoiceId
  · obtain ⟨r, rfl, here⟩ := wrote
    obtain ⟨⟨j, stored, moved⟩, paid⟩ := h.2 r rfl here
    have found : (l.stage.rows.foldl Row.apply db).invoice? c invoiceId = some r := by
      have company := fits.invoice_company (r := r) (by rw [closing]; rfl)
      rw [Stage.view_invoice?, closing]
      simp [Stage.invoice, here, company]
    have only : ∀ {i}, (l.stage.rows.foldl Row.apply db).invoice? c invoiceId = some i → i = r :=
      fun hi => Option.some.inj (hi.symm.trans found)
    rw [closing] at coherent
    refine ⟨⟨positive, fun i hi => ?_, fun i hi e => ?_, fun i hi e => ?_, fun i hi e => ?_⟩,
      fun i hi => ⟨r, found, ?_⟩⟩
    · rw [only hi]
      cases q with
      | none => rcases coherent with e | e <;> simp [e]
      | some q => rcases coherent.2.2 with e | e <;> simp [e]
    · rw [only hi] at e
      cases q with
      | none => rcases coherent with e' | e' <;> simp [e'] at e
      | some q => rcases coherent.2.2 with e' | e' <;> simp [e'] at e
    · rw [only hi] at e
      rw [payments]
      cases q with
      | none => rcases coherent with e' | e' <;> simp [e'] at e
      | some q =>
        rw [← here, coherent.2.1]
        exact fits.paying (by rw [closing]; rfl)
    · rw [only hi] at e ⊢
      rw [sum, closing]
      exact paid e
    · rw [stored] at hi
      cases hi
      exact moved
  · have found : (l.stage.rows.foldl Row.apply db).invoice? c invoiceId =
      db.invoice? c invoiceId := by
      rw [Stage.view_invoice?, closing]
      cases r with
      | none => rfl
      | some r => exact if_neg fun same => wrote ⟨r, rfl, same.symm⟩
    refine ⟨⟨positive, ?_, ?_, ?_, ?_⟩, ?_⟩
    · rw [found]
      exact lawful.known
    · rw [found]
      exact fun i hi e => payments.2 (lawful.draft i hi e)
    · rw [found]
      exact fun i hi e none => lawful.rolledUp i hi e (payments.1 none)
    · rw [found]
      intro i hi e
      have := lawful.paid i hi e
      omega
    · intro i hi
      exact ⟨i, found.trans hi, .inl rfl⟩

structure Orderly (c invoiceId : Id) (w : World billing ι Stage) : Prop where
  fits : AllFit c w
  coherent : AllCoherent w
  knows : ∀ t l, w.live t = some l → Knows c invoiceId w.db l
  lawful : w.db.Lawful c invoiceId
  moved : (w.db :: w.past).IsChain (Moved c invoiceId)

variable [DecidableEq ι]

theorem step_orderly {w w' : World billing ι Stage} {e : Event billing ι}
    (hx : w.Exclusive (engine S)) (h : Orderly c invoiceId w)
    (guards : ExecsGuarded c invoiceId w e)
    (step : World.Step (engine S) (verbs c) w e w') : Orderly c invoiceId w' := by
  have fits := step_fits hx h.fits step
  have coherent := step_coherent h.coherent step
  have knows : ∀ t l, w'.live t = some l → Knows c invoiceId w'.db l := by
    refine step.live h.knows (fun t l s ws m here event does => ?_) (fun t l j m here does => ?_)
      fun t l u r here ready hu hr _ => ?_
    · subst event
      exact (h.knows t l here).exec h.lawful (h.fits t l here) (h.coherent t l here) does
        (guards l here)
    · cases does
      exact h.knows t l here
    · have fit := h.fits t l here
      rw [fit.view]
      have gain := fit.gain_nonneg h.lawful.positive
        ((h.knows t l here).confirmed (h.coherent t l here))
      have sum := Stage.view_paid c invoiceId l.stage w.db
      refine (h.knows u r hr).later (fun j found => fit.total found) fit.noPayments.2 (by omega)
        ?_ ?_
      · unfold Stage.gain
        cases own : r.stage.payment with
        | none => rfl
        | some q =>
          have same := h.fits.other_payment hx hu here hr own
          obtain ⟨p, patch, found, -⟩ := (h.fits u r hr).payment q own
          rw [found] at same
          simp only [(Db.payment?_some.1 same).1, (Db.payment?_some.1 found).1]
      · rintro i own rfl
        exact h.fits.other_invoice hx hu here hr own
  cases step with
  | exec | emit | drop => exact ⟨fits, coherent, knows, h.lawful, h.moved⟩
  | commit t l here ready =>
    obtain ⟨lawful, moved⟩ := (h.knows t l here).commit h.lawful (h.fits t l here)
      (h.coherent t l here) ready
    rw [← (h.fits t l here).view (S := S)] at lawful moved
    exact ⟨fits, coherent, knows, lawful, .cons_cons moved h.moved⟩

end invariant

/-- **The invoice keeps to its state machine** in every run of `issue`, `void`
and `confirm` requests in which no UPDATE of it runs with an outdated guard. -/
theorem status_moves_on {ι : Type} [Fintype ι] [DecidableEq ι] (S : Server) (ctx : Ctx)
    (invoiceId : Id) (verb : ι → Verb) (accepting : ∀ t id reason, verb t ≠ .reject id reason)
    (db : Db) (lawful : db.Lawful ctx.companyId invoiceId) (as : List (Action ι))
    (c : Config billing ι (Payment ⊕ Invoice))
    (run : (Config.start db fun t => (verb t).prog ctx).run (engine S) as = some c)
    (guards : (Config.start db fun t => (verb t).prog ctx).Along (engine S)
      (GuardsHold ctx.companyId invoiceId) as) :
    (c.db :: c.past).IsChain (Moved ctx.companyId invoiceId) := by
  have first : Orderly ctx.companyId invoiceId (World.start db fun t => .start (verb t)) := by
    refine ⟨start_fits db verb, start_coherent db verb, fun t l hl => ?_, lawful, .singleton _⟩
    cases hl
    exact accepting t
  obtain ⟨w, refines, -, orderly⟩ := run_world (GuardsHold ctx.companyId invoiceId)
    (ExecsGuarded ctx.companyId invoiceId)
    (fun _ _ _ _ refines guards shows => guards.shows refines shows)
    (fun _ _ _ hx h guards step => step_orderly hx h guards step) as _ c _
    (Refines.start fun t => (verb t).follows S ctx) (World.start_exclusive _ db _) first guards run
  rw [refines.db, refines.past]
  exact orderly.moved

namespace Demo

/-- A pending payment of `amount` on an issued invoice of 100 baht. -/
def issued (amount : Numeric 10 2) : Db :=
  db [invoice 1 11 (baht 100) .issued] [payment 5 1 11 amount "key-of-payment-5"]

theorem issued_lawful (amount : Numeric 10 2) (positive : 0 < amount.units) :
    (issued amount).Lawful 1 1 := by
  constructor
  · intro p hp company invoice
    cases List.mem_singleton.1 hp
    exact positive
  all_goals
    intro i hi
    cases hi
    simp [invoice]

/-- A confirmation of the payment, and `void`. -/
def closure (amount : Numeric 10 2) : Config billing (Fin 2) (Payment ⊕ Invoice) :=
  Config.start (issued amount) fun t => (if t = 0 then Verb.confirm 0 5 7 else .void 1).prog ctx

/-- `issue` and `void` on a draft. -/
def drafted : Config billing (Fin 2) (Payment ⊕ Invoice) :=
  Config.start (db [invoice 1 11 (baht 100) .draft] [])
    fun t => (if t = 0 then Verb.issue 0 1 else .void 1).prog ctx

/-- The second request reads the invoice after the first one's COMMIT. -/
def closureInTurn : List (Action (Fin 2)) :=
  List.replicate 9 (.advance 0) ++ List.replicate 3 (.advance 1)

/-- The first request commits between the second one's SELECT and UPDATE. -/
def overtaken : List (Action (Fin 2)) :=
  .advance 1 :: List.replicate 9 (.advance 0) ++ List.replicate 2 (.advance 1)

/-- The second request commits between the first one's SELECT and UPDATE. -/
def overtaking : List (Action (Fin 2)) :=
  .advance 0 :: List.replicate 3 (.advance 1) ++ List.replicate 4 (.advance 0)

/-- The invoice's committed statuses, newest first. -/
def statuses (c : Config billing (Fin 2) (Payment ⊕ Invoice)) : List (Option InvoiceStatus) :=
  (c.db :: c.past).map fun d => (d.invoice? 1 1).map Invoice.status

end Demo

/-- A part payment, and `void` after it. -/
theorem status_moves_on_in_turn :
    ((Demo.closure (Demo.baht 40)).run (engine Demo.server) Demo.closureInTurn).map Demo.statuses =
      some [some .void, some .partially_paid, some .issued] ∧
    ∀ c, (Demo.closure (Demo.baht 40)).run (engine Demo.server) Demo.closureInTurn = some c →
      (c.db :: c.past).IsChain (Moved 1 1) :=
  ⟨by decide, fun c run =>
    status_moves_on Demo.server Demo.ctx 1
      (fun t : Fin 2 => if t = 0 then .confirm 0 5 7 else .void 1)
      (fun t id reason => by split <;> exact fun e => by cases e) _
      (Demo.issued_lawful (Demo.baht 40) (by decide)) Demo.closureInTurn c run (by decide)⟩

/-- A void invoice is issued, and a paid one voided. -/
theorem outdated_guards_overwrite :
    (Demo.drafted.run (engine Demo.server) Demo.overtaking).map Demo.statuses =
      some [some .issued, some .void, some .draft] ∧
    ((Demo.closure (Demo.baht 100)).run (engine Demo.server) Demo.overtaken).map Demo.statuses =
      some [some .void, some .paid, some .issued] := by
  decide

end Dormitory
