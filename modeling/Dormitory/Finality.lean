import Dormitory.Concurrent

/-!
# Decisions under interleaving

`confirm` and `reject` look at the payment's status once and then update it by
id alone. A decision stays as long as no such UPDATE runs after the opposite
decision was committed: then the status changes at most once, the columns of
the other decision stay null, and an invoice whose only payment was rejected
has not been rolled up.
-/

namespace Dormitory
open Txn

def Query.decision? : Query → Option (Id × PaymentPatch)
  | .paymentUpdate id patch => some (id, patch)
  | _ => none

/-- The statement does not decide a payment that holds the opposite decision. -/
def Undecided (c id : Id) (db : Db) (s : Statement) : Prop :=
  ∀ d ∈ s.query.decision?, d.1 = id → ∀ p ∈ db.payment? c id,
    p.status = .pending ∨ p.status = d.2.status

instance (c id : Id) (db : Db) (s : Statement) : Decidable (Undecided c id db s) :=
  inferInstanceAs (Decidable (∀ d ∈ s.query.decision?, d.1 = id → ∀ p ∈ db.payment? c id, _ ∨ _))

section undecided
variable {ι α : Type}

/-- No UPDATE of the payment runs after the opposite decision was committed. -/
def UpdatesUndecided (c id : Id) (cfg : Config billing ι α) (a : Action ι) : Prop :=
  ∀ e ∈ cfg.executes a, Undecided c id cfg.db e.1

instance (c id : Id) (cfg : Config billing ι α) (a : Action ι) :
    Decidable (UpdatesUndecided c id cfg a) :=
  inferInstanceAs (Decidable (∀ e ∈ cfg.executes a, _))

def ExecsUndecided (c id : Id) (w : World billing ι Stage) : Event billing ι → Prop
  | .exec t s => ∀ l, w.live t = some l → Undecided c id w.db s
  | _ => True

theorem UpdatesUndecided.shows {S : Server} {c id : Id} {cfg : Config billing ι α}
    {w : World billing ι Stage} {a : Action ι} {e : Event billing ι}
    (refines : Refines (engine S) (verbs c) cfg w) (undecided : UpdatesUndecided c id cfg a)
    (shows : Shows cfg a e) : ExecsUndecided c id w e := by
  cases e with
  | commit | emit | drop => trivial
  | exec t s =>
    intro l here
    have := undecided _ (refines.shows_exec shows here)
    rwa [refines.db] at this

end undecided

/-! ## One decision -/

/-- `q` decides `p`, or decides it again the same way. -/
structure DecidedFrom (p q : Payment) : Prop where
  decided : q.status ≠ .pending
  allowed : p.status = .pending ∨ p.status = q.status
  confirmed : q.status = .confirmed → q.rejectionReason = p.rejectionReason
  rejected : q.status = .rejected → q.confirmedAt = p.confirmedAt
  invoiceId : q.invoiceId = p.invoiceId

/-- The columns of a decision that the payment does not hold are null. -/
def Payment.Nulls (p : Payment) : Prop :=
  (p.status ≠ .confirmed → p.confirmedAt = none) ∧ (p.status ≠ .rejected → p.rejectionReason = none)

theorem PaymentPatch.Decision.from {patch : PaymentPatch} (h : patch.Decision) {p : Payment}
    (allowed : p.status = .pending ∨ p.status = patch.status) : DecidedFrom p (patch.apply p) := by
  rcases h with ⟨status, reason⟩ | ⟨status, time⟩
  · exact ⟨by simp [status], allowed, fun _ => by simp [PaymentPatch.apply, reason],
      fun e => by simp [status] at e, rfl⟩
  · exact ⟨by simp [status], allowed, fun e => by simp [status] at e,
      fun _ => by simp [PaymentPatch.apply, time], rfl⟩

theorem DecidedFrom.nulls {p q : Payment} (h : DecidedFrom p q) (nulls : p.Nulls) : q.Nulls := by
  constructor
  · intro other
    have status : q.status = .rejected := by
      have := h.decided
      cases e : q.status <;> simp_all
    have before : p.status ≠ .confirmed := by
      rcases h.allowed with e | e <;> simp [e, status]
    rw [h.rejected status]
    exact nulls.1 before
  · intro other
    have status : q.status = .confirmed := by
      have := h.decided
      cases e : q.status <;> simp_all
    have before : p.status ≠ .rejected := by
      rcases h.allowed with e | e <;> simp [e, status]
    rw [h.confirmed status]
    exact nulls.2 before

/-! ## The invariant -/

section invariant
variable {S : Server} {c id invoiceId : Id} {ι : Type}

/-- A live request that has written the payment has decided the committed one. -/
def Settles (c id : Id) (db : Db) (l : Live billing Stage) : Prop :=
  ∀ q, l.stage.payment = some q → q.id = id → ∃ p, db.payment? c id = some p ∧ DecidedFrom p q

/-- The payment in two committed states. -/
def Later (c id : Id) (later earlier : Db) : Prop :=
  ∀ p q, earlier.payment? c id = some p → later.payment? c id = some q →
    q.status = p.status ∨ p.status = .pending

/-- The invoice has no payment but this one. -/
def Db.Sole (db : Db) (c id invoiceId : Id) : Prop :=
  ∀ x ∈ db.payments.rows, x.companyId = c → x.invoiceId = invoiceId → x.id = id

/-- A sole payment has been confirmed if its invoice was rolled up. -/
def Db.RolledUp (db : Db) (c id invoiceId : Id) : Prop :=
  db.Sole c id invoiceId → ∀ i, db.invoice? c invoiceId = some i →
    i.status = .paid ∨ i.status = .partially_paid →
      ∃ p, db.payment? c id = some p ∧ p.status = .confirmed

structure Decisive (c id invoiceId : Id) (w : World billing ι Stage) : Prop where
  fits : AllFit c w
  coherent : AllCoherent w
  settles : ∀ t l, w.live t = some l → Settles c id w.db l
  stored : ∀ d ∈ w.db :: w.past, ∃ p, d.payment? c id = some p ∧ p.Nulls ∧ p.invoiceId = invoiceId
  final : (w.db :: w.past).Pairwise (Later c id)
  rolledUp : ∀ d ∈ w.db :: w.past, d.RolledUp c id invoiceId

/-- A statement keeps what its request has settled. -/
theorem Settles.exec {db : Db} {l : Live billing Stage} (fits : Fits c db l)
    (coherent : l.stage.Coherent) (h : Settles c id db l)
    {s : Statement} {ws : List Row} {m : Stage}
    (does : Does c l.stage s (l.view (engine S) db) ws m) (undecided : Undecided c id db s)
    (tr : Seen) : Settles c id db ⟨m, l.writes ++ ws, tr⟩ := by
  have view := fits.view (S := S)
  obtain ⟨stage, ws', tr'⟩ := l
  simp only at does view coherent
  rw [view] at does
  cases does with
  | pending | draft | company | alive =>
    intro q hq
    cases hq
  | @confirm id' patch v p found | @reject id' patch v p found =>
    intro q hq same
    cases hq
    have found : db.payment? c id' = some p := found
    have own : id' = id := (Db.payment?_id found).symm.trans same
    subst own
    exact ⟨p, found, coherent.from (undecided (id', patch) rfl rfl p found)⟩
  | roll | sum | move | close => exact h

/-- What a commit makes of the payment. -/
theorem Settles.commit {db : Db} {l : Live billing Stage} (fits : Fits c db l)
    (h : Settles c id db l) {p : Payment} (found : db.payment? c id = some p) :
    ∃ q, (l.stage.rows.foldl Row.apply db).payment? c id = some q ∧ (q = p ∨ DecidedFrom p q) := by
  rw [Stage.view_payment?]
  cases own : l.stage.payment with
  | none => exact ⟨p, found, .inl rfl⟩
  | some q =>
    by_cases same : id = q.id
    · obtain ⟨p', found', decided⟩ := h q own same.symm
      rw [found] at found'
      cases found'
      simp only [same, if_true, fits.payment_company own]
      exact ⟨q, rfl, .inr decided⟩
    · simp only [same, if_false]
      exact ⟨p, found, .inl rfl⟩

/-- A commit adds no payment to the invoice. -/
theorem Fits.sole {db : Db} {l : Live billing Stage} (fits : Fits c db l)
    (h : (l.stage.rows.foldl Row.apply db).Sole c id invoiceId) : db.Sole c id invoiceId := by
  intro x hx company invoice
  obtain ⟨x', hx', same⟩ := fits.after hx
  exact same.id.symm.trans (h x' hx' (same.companyId.trans company) (same.invoiceId.trans invoice))

theorem Settles.rolledUp {db : Db} {l : Live billing Stage} (fits : Fits c db l)
    (coherent : l.stage.Coherent) (settles : Settles c id db l) (h : db.RolledUp c id invoiceId)
    {p : Payment} (found : db.payment? c id = some p)
    (closing : ∃ q r, l.stage = .closing q r) :
    (l.stage.rows.foldl Row.apply db).RolledUp c id invoiceId := by
  intro sole i hi rolled
  obtain ⟨q', after, change⟩ := settles.commit fits found
  have invoices := hi
  rw [Stage.view_invoice?] at invoices
  obtain ⟨q, r, closing⟩ := closing
  by_cases wrote : ∃ r', r = some r' ∧ r'.id = invoiceId
  · -- The rollup of this request: it has confirmed the payment.
    obtain ⟨r, rfl, rfl⟩ := wrote
    have company := fits.invoice_company (r := r) (by rw [closing]; rfl)
    simp only [closing, Stage.invoice, company, if_true, Option.some.injEq] at invoices
    subst invoices
    rw [closing] at coherent
    cases q with
    | none => rcases coherent with e | e <;> simp [e] at rolled
    | some q =>
      obtain ⟨confirmed, own, -⟩ := coherent
      have paying : l.stage.payment = some q := by rw [closing]; rfl
      have row : q ∈ (l.stage.rows.foldl Row.apply db).payments.rows := by
        rw [Stage.view_payments, paying]
        exact Table.mem_put.2 (.inl rfl)
      have only := sole q row (fits.payment_company paying) own.symm
      rw [Stage.view_payment?, paying] at after
      simp only [only, if_true, fits.payment_company paying, Option.some.injEq] at after
      refine ⟨q, ?_, confirmed⟩
      rw [Stage.view_payment?, paying]
      simp [only, fits.payment_company paying]
  · -- The invoice was rolled up before, and the payment stays confirmed.
    have kept : db.invoice? c invoiceId = some i := by
      rw [closing] at invoices
      cases r with
      | none => exact invoices
      | some r =>
        have other : ¬ invoiceId = r.id := fun same => wrote ⟨r, rfl, same.symm⟩
        simpa only [Stage.invoice, other, if_false] using invoices
    obtain ⟨p', found', confirmed⟩ := h (fits.sole sole) i kept rolled
    rw [found] at found'
    cases found'
    refine ⟨q', after, ?_⟩
    rcases change with rfl | decided
    · exact confirmed
    · rcases decided.allowed with e | e
      · simp [confirmed] at e
      · exact e.symm.trans confirmed

variable [DecidableEq ι]

theorem step_decisive {w w' : World billing ι Stage} {e : Event billing ι}
    (hx : w.Exclusive (engine S)) (h : Decisive c id invoiceId w)
    (undecided : ExecsUndecided c id w e)
    (step : World.Step (engine S) (verbs c) w e w') : Decisive c id invoiceId w' := by
  have fits := step_fits hx h.fits step
  have coherent := step_coherent h.coherent step
  have settles : ∀ t l, w'.live t = some l → Settles c id w'.db l := by
    refine step.live h.settles (fun t l s ws m here event does => ?_) (fun t l j m here does => ?_)
      fun t l u r here _ hu hr _ => ?_
    · subst event
      exact (h.settles t l here).exec (h.fits t l here) (h.coherent t l here) does
        (undecided l here) _
    · cases does
      exact h.settles t l here
    · intro q hq same
      rw [(h.fits t l here).view, ← same, h.fits.other_payment hx hu here hr hq, same]
      exact h.settles u r hr q hq same
  cases step with
  | exec | emit | drop => exact ⟨fits, coherent, settles, h.stored, h.final, h.rolledUp⟩
  | commit t l here ready =>
    have view := (h.fits t l here).view (S := S)
    obtain ⟨p, found, nulls, invoice⟩ := h.stored w.db List.mem_cons_self
    obtain ⟨q, after, change⟩ := (h.settles t l here).commit (h.fits t l here) found
    rw [← view] at after
    refine ⟨fits, coherent, settles, fun d hd => ?_, ?_, fun d hd => ?_⟩
    · rcases List.mem_cons.1 hd with rfl | hd
      · refine ⟨q, after, ?_⟩
        rcases change with rfl | decided
        · exact ⟨nulls, invoice⟩
        · exact ⟨decided.nulls nulls, decided.invoiceId.trans invoice⟩
      · exact h.stored d hd
    · refine List.pairwise_cons.2 ⟨fun earlier he => ?_, h.final⟩
      intro p₀ q' found₀ after'
      have same : q' = q := Option.some.inj (after'.symm.trans after)
      subst same
      have upTo : p.status = p₀.status ∨ p₀.status = .pending := by
        rcases List.mem_cons.1 he with rfl | he
        · rw [found] at found₀
          cases found₀
          exact .inl rfl
        · exact (List.pairwise_cons.1 h.final).1 earlier he p₀ p found₀ found
      rcases upTo with upTo | pending
      · rcases change with rfl | decided
        · exact .inl upTo
        · rcases decided.allowed with e | e
          · exact .inr (upTo ▸ e)
          · exact .inl (e.symm.trans upTo)
      · exact .inr pending
    · rcases List.mem_cons.1 hd with rfl | hd
      · change Db.RolledUp (l.view (engine S) w.db) c id invoiceId
        rw [view]
        exact (h.settles t l here).rolledUp (h.fits t l here) (h.coherent t l here)
          (h.rolledUp w.db List.mem_cons_self) found ready
      · exact h.rolledUp d hd

end invariant

/-- **A decision is final** in every run of `confirm`, `reject`, `issue` and
`void` requests in which no UPDATE decides a payment that already holds the
opposite decision. -/
theorem decision_final {ι : Type} [Fintype ι] [DecidableEq ι] (S : Server) (ctx : Ctx) (id : Id)
    (verb : ι → Verb) (db : Db) (p : Payment) (found : db.payment? ctx.companyId id = some p)
    (nulls : p.Nulls) (rolledUp : db.RolledUp ctx.companyId id p.invoiceId)
    (as : List (Action ι)) (c : Config billing ι (Payment ⊕ Invoice))
    (run : (Config.start db fun t => (verb t).prog ctx).run (engine S) as = some c)
    (undecided : (Config.start db fun t => (verb t).prog ctx).Along (engine S)
      (UpdatesUndecided ctx.companyId id) as) :
    (c.db :: c.past).Pairwise (Later ctx.companyId id) ∧
    ∀ d ∈ c.db :: c.past, ∃ q, d.payment? ctx.companyId id = some q ∧
      (q.status = .rejected → q.confirmedAt = none) ∧
      (q.status = .confirmed → q.rejectionReason = none) ∧
      (q.status = .rejected → d.Sole ctx.companyId id p.invoiceId →
        ∀ i, d.invoice? ctx.companyId p.invoiceId = some i →
          i.status ≠ .paid ∧ i.status ≠ .partially_paid) := by
  have first : Decisive ctx.companyId id p.invoiceId (World.start db fun t => .start (verb t)) := by
    refine ⟨start_fits db verb, start_coherent db verb, fun t l hl => ?_, fun d hd => ?_,
      List.pairwise_singleton _ _, fun d hd => ?_⟩
    · cases hl
      intro q hq
      cases hq
    · cases List.mem_singleton.1 hd
      exact ⟨p, found, nulls, rfl⟩
    · cases List.mem_singleton.1 hd
      exact rolledUp
  obtain ⟨w, refines, -, decisive⟩ := run_world (UpdatesUndecided ctx.companyId id)
    (ExecsUndecided ctx.companyId id)
    (fun _ _ _ _ refines undecided shows => undecided.shows refines shows)
    (fun _ _ _ hx h undecided step => step_decisive hx h undecided step) as _ c _
    (Refines.start fun t => (verb t).follows S ctx) (World.start_exclusive _ db _)
    first undecided run
  rw [refines.db, refines.past]
  refine ⟨decisive.final, fun d hd => ?_⟩
  obtain ⟨q, stored, nulls, -⟩ := decisive.stored d hd
  refine ⟨q, stored, fun e => nulls.1 (by simp [e]), fun e => nulls.2 (by simp [e]), ?_⟩
  intro rejected sole i hi
  have confirmed := decisive.rolledUp d hd sole i hi
  have contradiction : ¬ (i.status = .paid ∨ i.status = .partially_paid) := by
    intro rolled
    obtain ⟨q', stored', confirmed⟩ := confirmed rolled
    rw [stored] at stored'
    cases stored'
    simp [rejected] at confirmed
  exact ⟨fun e => contradiction (.inl e), fun e => contradiction (.inr e)⟩

namespace Demo

/-- A confirmation and a rejection of one payment. -/
def dispute : Config billing (Fin 2) (Payment ⊕ Invoice) :=
  Config.start (db [invoice 1 11 (baht 100) .issued] [payment 5 1 11 (baht 100) "key-of-payment-5"])
    fun t => (if t = 0 then Verb.confirm 0 5 7 else .reject 5 "slip unreadable").prog ctx

/-- The rejection reads the payment after the confirmation's COMMIT. -/
def disputeInTurn : List (Action (Fin 2)) :=
  List.replicate 9 (.advance 0) ++ List.replicate 2 (.advance 1)

/-- Both read the payment, then each runs to its end. -/
def disputeCrossing : List (Action (Fin 2)) :=
  .advance 0 :: .advance 1 :: List.replicate 8 (.advance 0) ++ List.replicate 5 (.advance 1)

/-- The payment's status and time of confirmation in the committed states,
newest first, and the invoice's status. -/
def verdicts (c : Config billing (Fin 2) (Payment ⊕ Invoice)) :
    List (Option (PaymentStatus × Option Instant)) × Option InvoiceStatus :=
  ((c.db :: c.past).map fun d => (d.payment? 1 5).map fun p => (p.status, p.confirmedAt),
    (c.db.invoice? 1 1).map Invoice.status)

end Demo

/-- A confirmation, and a rejection that comes too late. -/
theorem decision_final_in_turn :
    (Demo.dispute.run (engine Demo.server) Demo.disputeInTurn).map Demo.verdicts =
      some ([some (.confirmed, some 0), some (.pending, none)], some .paid) ∧
    ∀ c, Demo.dispute.run (engine Demo.server) Demo.disputeInTurn = some c →
      (c.db :: c.past).Pairwise (Later 1 5) :=
  ⟨by decide, fun c run =>
    (decision_final Demo.server Demo.ctx 5
      (fun t : Fin 2 => if t = 0 then .confirm 0 5 7 else .reject 5 "slip unreadable") _ _ rfl
      ⟨fun _ => rfl, fun _ => rfl⟩
      (fun _ i hi paid => by cases hi; rcases paid with e | e <;> cases e)
      Demo.disputeInTurn c run (by decide)).1⟩

/-- The confirmed payment is rejected: it keeps its time of confirmation, and
its invoice, which has no other payment, stays paid. -/
theorem crossing_reject_overturns :
    (Demo.dispute.run (engine Demo.server) Demo.disputeCrossing).map Demo.verdicts =
      some ([some (.rejected, some 0), some (.confirmed, some 0), some (.pending, none)],
        some .paid) := by
  decide

end Dormitory
