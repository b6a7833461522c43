import Dormitory.Concurrent

/-!
# The rollup under interleaving

A `confirm` sums the payments it can see, which leaves out those that other
open requests have confirmed, and writes the status that this sum calls for. In
runs of `confirm`, the invoice agrees with the payment rows in every committed
state as long as nobody else confirms a payment of the invoice between a request's
SELECT of the confirmed ones and its COMMIT.
-/

namespace Dormitory
open Txn PaymentService

/-! ## What the payments call for -/

/-- The exact sum of the confirmed payments, in satang. -/
def Db.paid (db : Db) (c invoiceId : Id) : Int :=
  ((db.confirmedPayments c invoiceId).map fun p => p.amount.units).sum

/-- The source's decimals decide as the exact sum does. -/
theorem nextStatus_eq (total : Numeric 10 2) {ps : List Payment}
    (amounts : ∀ p ∈ ps, 0 ≤ p.amount.units) :
    nextStatus total ps =
      if total.units ≤ (ps.map fun p => p.amount.units).sum then some .paid
      else if 0 < (ps.map fun p => p.amount.units).sum then some .partially_paid
      else none := by
  have decimals : ps.map (fun p => p.amount.toDecimal) =
    (ps.map fun p => p.amount.units).map satang := by
    rw [List.map_map]
    rfl
  have sum := moneySum_satang (ps.map fun p => p.amount.units) (by simpa using amounts)
  have bound : total.units.natAbs < 10 ^ 10 := total.fits
  have sign := Decimal.toStorage_round_pos
    (total.units - toStorage (moneySum ((ps.map fun p => p.amount.units).map satang)))
  rw [← toStorage_moneySub] at sign
  have outstanding : toStorage (moneySub (satang total.units)
      (satang (toStorage (moneySum ((ps.map fun p => p.amount.units).map satang))))) ≤ 0 ↔
      total.units ≤ (ps.map fun p => p.amount.units).sum := by
    rw [← not_lt, sign]
    omega
  have positive : toStorage (moneySum ((ps.map fun p => p.amount.units).map satang)) > 0 ↔
      0 < (ps.map fun p => p.amount.units).sum := by omega
  have same : total.toDecimal = satang total.units := rfl
  simp only [nextStatus, decimals, same, outstanding, positive]

/-- The invoice has the status that its confirmed payments call for. -/
def Db.Agrees (db : Db) (c invoiceId : Id) : Prop :=
  ∀ i, db.invoice? c invoiceId = some i →
    (i.total.units ≤ db.paid c invoiceId → i.status = .paid) ∧
    (0 < db.paid c invoiceId → db.paid c invoiceId < i.total.units → i.status = .partially_paid)

theorem confirmedPayments_amounts {db : Db} {c invoiceId : Id}
    (positive : ∀ p ∈ db.payments.rows, p.companyId = c → p.invoiceId = invoiceId →
      0 < p.amount.units) :
    ∀ p ∈ db.confirmedPayments c invoiceId, 0 ≤ p.amount.units := by
  intro p hp
  obtain ⟨hp, h⟩ := List.mem_filter.1 hp
  simp only [decide_eq_true_eq] at h
  have := positive p hp h.1 h.2.1
  omega

/-- The same, in the terms of the source. -/
theorem agrees_iff {db : Db} {c invoiceId : Id}
    (positive : ∀ p ∈ db.payments.rows, p.companyId = c → p.invoiceId = invoiceId →
      0 < p.amount.units) :
    db.Agrees c invoiceId ↔ ∀ i, db.invoice? c invoiceId = some i →
      ∀ next, nextStatus i.total (db.confirmedPayments c invoiceId) = some next →
        i.status = next := by
  refine forall_congr' fun i => imp_congr_right fun _ => ?_
  rw [nextStatus_eq i.total (confirmedPayments_amounts positive)]
  change _ ↔ ∀ next, (if i.total.units ≤ db.paid c invoiceId then some InvoiceStatus.paid
    else if 0 < db.paid c invoiceId then some .partially_paid else none) = some next →
      i.status = next
  constructor
  · rintro ⟨all, part⟩ next calls
    split at calls
    · cases calls
      exact all ‹_›
    · split at calls
      · cases calls
        exact part ‹_› (by omega)
      · cases calls
  · intro h
    constructor
    · intro enough
      exact h .paid (by rw [if_pos enough])
    · intro some less
      exact h .partially_paid (by rw [if_neg (by omega), if_pos some])

/-! ## Overtaken sums -/

/-- Nobody has confirmed another payment of the invoice since the request's SELECT of
the confirmed ones: those that are committed at its COMMIT on `db` were there. -/
def Unovertaken (c invoiceId : Id) (db : Db) (seen : Seen) : Prop :=
  ∀ read ∈ seen, read.1 = ⟨c, .paymentFindConfirmed invoiceId⟩ →
    ∀ p ∈ db.confirmedPayments c invoiceId,
      ∃ p' ∈ read.2.confirmedPayments c invoiceId, p'.id = p.id

instance (c invoiceId : Id) (db : Db) (seen : Seen) : Decidable (Unovertaken c invoiceId db seen) :=
  inferInstanceAs (Decidable (∀ read ∈ seen, read.1 = ⟨c, .paymentFindConfirmed invoiceId⟩ → _))

section overtaken
variable {ι α : Type}

/-- No COMMIT comes with an overtaken sum. -/
def SumsUnovertaken (c invoiceId : Id) (cfg : Config billing ι α) (a : Action ι) : Prop :=
  ∀ x ∈ cfg.commits a, Unovertaken c invoiceId cfg.db x.trace

instance (c invoiceId : Id) (cfg : Config billing ι α) (a : Action ι) :
    Decidable (SumsUnovertaken c invoiceId cfg a) :=
  inferInstanceAs (Decidable (∀ x ∈ cfg.commits a, _))

def CommitsUnovertaken (c invoiceId : Id) (w : World billing ι Stage) : Event billing ι → Prop
  | .commit t => ∀ l, w.live t = some l → Unovertaken c invoiceId w.db l.trace
  | _ => True

theorem SumsUnovertaken.shows {S : Server} {c invoiceId : Id} {cfg : Config billing ι α}
    {w : World billing ι Stage} {a : Action ι} {e : Event billing ι}
    (refines : Refines (engine S) (verbs c) cfg w) (sums : SumsUnovertaken c invoiceId cfg a)
    (shows : Shows cfg a e) : CommitsUnovertaken c invoiceId w e := by
  cases e with
  | exec | emit | drop => trivial
  | commit t =>
    intro l here
    have := sums _ (refines.shows_commit shows here)
    rwa [refines.db] at this

end overtaken

/-! ## Payments that stay confirmed -/

/-- Every payment of `ps` is still there. -/
def Remain (ps ps' : List Payment) : Prop := ∀ p ∈ ps, ∃ p' ∈ ps', p.Same p'

theorem Remain.refl (ps : List Payment) : Remain ps ps := fun p hp => ⟨p, hp, .refl p⟩

theorem Remain.trans {ps qs rs : List Payment} (h : Remain ps qs) (h' : Remain qs rs) :
    Remain ps rs := by
  intro p hp
  obtain ⟨q, hq, same⟩ := h p hp
  obtain ⟨r, hr, same'⟩ := h' q hq
  exact ⟨r, hr, same.trans same'⟩

/-- What stays adds up to no more than what is there later. -/
theorem Remain.sum_le {ps ps' : List Payment} (kept : Remain ps ps')
    (distinct : (ps.map Payment.id).Nodup) (amounts : ∀ p ∈ ps', 0 ≤ p.amount.units) :
    (ps.map fun p => p.amount.units).sum ≤ (ps'.map fun p => p.amount.units).sum := by
  let entry (p : Payment) : Id × Int := (p.id, p.amount.units)
  have apart : (ps.map entry).Nodup := by
    apply List.Nodup.of_map Prod.fst
    rw [List.map_map]
    exact distinct
  have inside : ps.map entry ⊆ ps'.map entry := by
    intro x hx
    obtain ⟨p, hp, rfl⟩ := List.mem_map.1 hx
    obtain ⟨p', hp', same⟩ := kept p hp
    refine List.mem_map.2 ⟨p', hp', ?_⟩
    simp only [entry, same.id, same.amount]
  obtain ⟨xs, perm, sub⟩ := List.subperm_of_subset apart inside
  have positive : ∀ n ∈ (ps'.map entry).map Prod.snd, 0 ≤ n := by
    intro n hn
    rw [List.map_map] at hn
    obtain ⟨p, hp, rfl⟩ := List.mem_map.1 hn
    exact amounts p hp
  calc (ps.map fun p => p.amount.units).sum
      = ((ps.map entry).map Prod.snd).sum := by
        rw [List.map_map]
        rfl
    _ = (xs.map Prod.snd).sum := ((perm.map Prod.snd).sum_eq).symm
    _ ≤ ((ps'.map entry).map Prod.snd).sum := (sub.map Prod.snd).sum_le_sum positive
    _ = (ps'.map fun p => p.amount.units).sum := by
        rw [List.map_map]
        rfl

theorem mem_confirmedPayments {db : Db} {c invoiceId : Id} {p : Payment} :
    p ∈ db.confirmedPayments c invoiceId ↔
      p ∈ db.payments.rows ∧ p.companyId = c ∧ p.invoiceId = invoiceId ∧ p.status = .confirmed := by
  simp [Db.confirmedPayments]

theorem confirmedPayments_distinct (db : Db) (c invoiceId : Id) :
    ((db.confirmedPayments c invoiceId).map Payment.id).Nodup :=
  (List.filter_sublist.map Payment.id).nodup db.payments.distinct

section kept
variable {c invoiceId : Id} {db db' : Db}

theorem Stage.mem_view {m : Stage} {p : Payment} :
    p ∈ (m.rows.foldl Row.apply db).payments.rows ↔
      m.payment = some p ∨ p ∈ db.payments.rows ∧ ∀ q, m.payment = some q → p.id ≠ q.id := by
  rw [Stage.view_payments]
  cases own : m.payment with
  | none => simp
  | some q =>
    simp only [Table.mem_put, Option.some.injEq, eq_comm (a := q), forall_eq]
    rfl

/-- A request that confirms takes nothing away from the confirmed payments. -/
theorem Fits.keeps {l : Live billing Stage} (fits : Fits c db l)
    (confirms : ∀ q, l.stage.payment = some q → q.status = .confirmed) :
    Remain (db.confirmedPayments c invoiceId)
      ((l.stage.rows.foldl Row.apply db).confirmedPayments c invoiceId) := by
  intro p hp
  obtain ⟨stored, company, invoice, status⟩ := mem_confirmedPayments.1 hp
  by_cases replaced : ∃ q, l.stage.payment = some q ∧ p.id = q.id
  · obtain ⟨q, own, same⟩ := replaced
    obtain ⟨p', patch, found, rfl⟩ := fits.payment q own
    obtain rfl : p' = p := db.payments.key_inj (Table.find?_mem (Db.payment?_some.1 found).1)
      stored same.symm
    exact ⟨_, mem_confirmedPayments.2 ⟨Stage.mem_view.2 (.inl own), company, invoice,
      confirms _ own⟩, patch.same p'⟩
  · have apart : ∀ q, l.stage.payment = some q → p.id ≠ q.id :=
      fun q own same => replaced ⟨q, own, same⟩
    exact ⟨p, mem_confirmedPayments.2 ⟨Stage.mem_view.2 (.inr ⟨stored, apart⟩), company, invoice,
      status⟩, .refl p⟩

/-- What the committed payments keep, the view of a request keeps. -/
theorem Stage.view_kept (m : Stage)
    (kept : Remain (db.confirmedPayments c invoiceId) (db'.confirmedPayments c invoiceId)) :
    Remain ((m.rows.foldl Row.apply db).confirmedPayments c invoiceId)
      ((m.rows.foldl Row.apply db').confirmedPayments c invoiceId) := by
  intro p hp
  obtain ⟨seen, company, invoice, status⟩ := mem_confirmedPayments.1 hp
  rcases Stage.mem_view.1 seen with own | ⟨stored, apart⟩
  · exact ⟨p, mem_confirmedPayments.2 ⟨Stage.mem_view.2 (.inl own), company, invoice, status⟩,
      .refl p⟩
  · obtain ⟨p', hp', same⟩ := kept p (mem_confirmedPayments.2 ⟨stored, company, invoice, status⟩)
    obtain ⟨stored', rest⟩ := mem_confirmedPayments.1 hp'
    refine ⟨p', mem_confirmedPayments.2 ⟨Stage.mem_view.2 (.inr ⟨stored', fun q own => ?_⟩),
      rest⟩, same⟩
    rw [same.id]
    exact apart q own

end kept

/-! ## The invariant -/

section invariant
variable {S : Server} {c invoiceId : Id} {ι : Type} {db db' : Db} {l : Live billing Stage}

def Db.HasTotal (db : Db) (c invoiceId : Id) (total : Numeric 10 2) : Prop :=
  ∃ j, db.invoice? c invoiceId = some j ∧ j.total = total

/-- The committed payments stand behind the status. -/
structure Db.Backs (db : Db) (c invoiceId : Id) (total : Numeric 10 2) (status : InvoiceStatus) :
    Prop where
  paid : status = .paid → total.units ≤ db.paid c invoiceId
  partially_paid : status = .partially_paid → 0 < db.paid c invoiceId

/-- The invoice is alive, and has payments if it is paid or partially paid. -/
def Db.Backed (db : Db) (c invoiceId : Id) : Prop :=
  ∀ i, db.invoice? c invoiceId = some i → i.status ≠ .void ∧ db.Backs c invoiceId i.total i.status

theorem Db.Backs.mono {total : Numeric 10 2} {status : InvoiceStatus}
    (h : db.Backs c invoiceId total status) (grows : db.paid c invoiceId ≤ db'.paid c invoiceId) :
    db'.Backs c invoiceId total status :=
  ⟨fun e => (h.paid e).trans grows, fun e => (h.partially_paid e).trans_le grows⟩

/-- A request with this trace has summed payments that call for the status. -/
def CallsFor (c invoiceId : Id) (seen : Seen) (total : Numeric 10 2) (status : InvoiceStatus) :
    Prop :=
  ∃ v, (⟨c, .paymentFindConfirmed invoiceId⟩, v) ∈ seen ∧
    nextStatus total (v.confirmedPayments c invoiceId) = some status

theorem CallsFor.mono {seen seen' : Seen} {total : Numeric 10 2} {status : InvoiceStatus}
    (h : CallsFor c invoiceId seen total status) :
    CallsFor c invoiceId (seen ++ seen') total status := by
  obtain ⟨v, read, calls⟩ := h
  exact ⟨v, List.mem_append_left _ read, calls⟩

/-- The request has not summed the payments of the invoice. -/
def Unsummed (c invoiceId : Id) (seen : Seen) : Prop :=
  ∀ v, (⟨c, .paymentFindConfirmed invoiceId⟩, v) ∉ seen

/-- What a live `confirm` has found out about the invoice: its total, and that
the status to write is the one its sum calls for; if there is nothing to write, that
the committed payments stand behind the status they call for. -/
def RollsUp (c invoiceId : Id) (db : Db) (l : Live billing Stage) : Prop :=
  match l.stage with
  | .start (.confirm ..) => Unsummed c invoiceId l.trace
  | .deciding _ patch => patch.status = .confirmed ∧ Unsummed c invoiceId l.trace
  | .rolling q => q.status = .confirmed
  | .summing q i => q.status = .confirmed ∧ (q.invoiceId = invoiceId →
    db.HasTotal c invoiceId i.total ∧ db.Backs c invoiceId i.total i.status)
  | .moving (some q) id i patch => q.status = .confirmed ∧ id = q.invoiceId ∧ (id = invoiceId →
    db.HasTotal c invoiceId i.total ∧ CallsFor c invoiceId l.trace i.total patch.status)
  | .closing (some q) (some r) => q.status = .confirmed ∧ r.id = q.invoiceId ∧
    (r.id = invoiceId → CallsFor c invoiceId l.trace r.total r.status)
  | .closing (some q) none => q.status = .confirmed ∧ (q.invoiceId = invoiceId →
    ∀ j, db.invoice? c invoiceId = some j → ∃ status,
      CallsFor c invoiceId l.trace j.total status ∧ db.Backs c invoiceId j.total status)
  | .closing none none => True
  | _ => False

/-- A sum of the request has counted its own payment, and all that it has counted are
still confirmed. -/
structure Counted (c invoiceId : Id) (db : Db) (l : Live billing Stage) (v : Db) : Prop where
  own : ∀ q, l.stage.payment = some q → q.invoiceId = invoiceId →
    q ∈ v.confirmedPayments c invoiceId
  kept : Remain (v.confirmedPayments c invoiceId)
    ((l.stage.rows.foldl Row.apply db).confirmedPayments c invoiceId)

def AllCounted (c invoiceId : Id) (db : Db) (l : Live billing Stage) : Prop :=
  ∀ v, (⟨c, .paymentFindConfirmed invoiceId⟩, v) ∈ l.trace → Counted c invoiceId db l v

/-- What holds between the steps of a run of `confirm`. -/
structure Consistent (c invoiceId : Id) (w : World billing ι Stage) : Prop where
  fits : AllFit c w
  rollsUp : ∀ t l, w.live t = some l → RollsUp c invoiceId w.db l
  counted : ∀ t l, w.live t = some l → AllCounted c invoiceId w.db l
  positive : ∀ p ∈ w.db.payments.rows, p.companyId = c → p.invoiceId = invoiceId →
    0 < p.amount.units
  backed : w.db.Backed c invoiceId
  agrees : ∀ d ∈ w.db :: w.past, d.Agrees c invoiceId

theorem RollsUp.confirms (h : RollsUp c invoiceId db l) :
    ∀ q, l.stage.payment = some q → q.status = .confirmed := by
  intro q hq
  obtain ⟨stage, ws, tr⟩ := l
  cases stage with
  | start | deciding | issuing => cases hq
  | rolling => cases hq; exact h
  | summing => cases hq; exact h.1
  | moving => cases hq; exact h.1
  | closing q' r =>
    cases hq
    cases r <;> exact h.1

/-! ### What commits keep -/

/-- A commit keeps the amounts. -/
theorem Fits.positive (h : Fits c db l)
    (positive : ∀ p ∈ db.payments.rows, p.companyId = c → p.invoiceId = invoiceId →
      0 < p.amount.units) :
    ∀ p ∈ (l.stage.rows.foldl Row.apply db).payments.rows, p.companyId = c →
      p.invoiceId = invoiceId → 0 < p.amount.units := by
  intro p hp company invoice
  obtain ⟨p', hp', same⟩ := h.before hp
  rw [same.amount]
  exact positive p' hp' (same.companyId.symm.trans company) (same.invoiceId.symm.trans invoice)

/-- A commit makes no invoice. -/
theorem Fits.invoice_before (h : Fits c db l) {id : Id} {j' : Invoice}
    (found : (l.stage.rows.foldl Row.apply db).invoice? c id = some j') :
    ∃ j, db.invoice? c id = some j ∧ j.total = j'.total := by
  rw [Stage.view_invoice?] at found
  cases own : l.stage.invoice with
  | none =>
    rw [own] at found
    exact ⟨j', found, rfl⟩
  | some r =>
    simp only [own] at found
    obtain ⟨i, patch, stored, rfl⟩ := h.invoice r own
    split at found
    · rename_i same
      split at found
      · cases found
        exact ⟨i, same ▸ stored, rfl⟩
      · cases found
    · exact ⟨j', found, rfl⟩

/-- The sum of the committed payments grows with a commit. -/
theorem Fits.paid_le (h : Fits c db l)
    (confirms : ∀ q, l.stage.payment = some q → q.status = .confirmed)
    (positive : ∀ p ∈ db.payments.rows, p.companyId = c → p.invoiceId = invoiceId →
      0 < p.amount.units) :
    db.paid c invoiceId ≤ (l.stage.rows.foldl Row.apply db).paid c invoiceId :=
  (h.keeps confirms).sum_le (confirmedPayments_distinct db c invoiceId)
    (confirmedPayments_amounts (h.positive positive))

theorem RollsUp.later (h : RollsUp c invoiceId db l)
    (totals : ∀ j, db.invoice? c invoiceId = some j → db'.HasTotal c invoiceId j.total)
    (before : ∀ j', db'.invoice? c invoiceId = some j' →
      ∃ j, db.invoice? c invoiceId = some j ∧ j.total = j'.total)
    (grows : db.paid c invoiceId ≤ db'.paid c invoiceId) : RollsUp c invoiceId db' l := by
  obtain ⟨stage, ws, tr⟩ := l
  have keep : ∀ {total : Numeric 10 2}, db.HasTotal c invoiceId total →
      db'.HasTotal c invoiceId total := by
    rintro _ ⟨j, found, rfl⟩
    exact totals j found
  cases stage with
  | start v => cases v <;> exact h
  | deciding | rolling | issuing => exact h
  | summing q i =>
    refine ⟨h.1, fun here => ?_⟩
    obtain ⟨total, backs⟩ := h.2 here
    exact ⟨keep total, backs.mono grows⟩
  | moving q id i patch =>
    cases q with
    | none => exact h
    | some q => exact ⟨h.1, h.2.1, fun here => ⟨keep (h.2.2 here).1, (h.2.2 here).2⟩⟩
  | closing q r =>
    cases q with
    | none => cases r <;> exact h
    | some q =>
      cases r with
      | some r => exact h
      | none =>
        refine ⟨h.1, fun here j' found' => ?_⟩
        obtain ⟨j, found, total⟩ := before j' found'
        obtain ⟨status, calls, backs⟩ := h.2 here j found
        exact ⟨status, total ▸ calls, total ▸ backs.mono grows⟩

theorem AllCounted.later (h : AllCounted c invoiceId db l)
    (kept : Remain (db.confirmedPayments c invoiceId) (db'.confirmedPayments c invoiceId)) :
    AllCounted c invoiceId db' l := by
  intro v read
  exact ⟨(h v read).own, (h v read).kept.trans (l.stage.view_kept kept)⟩

/-! ### Statements -/

/-- Only a decision changes the payment that a request has written. -/
theorem Does.payment {m m' : Stage} {s : Statement} {v : Db} {ws : List Row}
    (does : Does c m s v ws m') :
    m'.payment = m.payment ∨
      ∃ id patch, m = .deciding id patch ∧ s = ⟨c, .paymentUpdate id patch⟩ := by
  cases does with
  | confirm | reject => exact .inr ⟨_, _, rfl, rfl⟩
  | pending | roll | sum | draft | company | alive | move | close => exact .inl rfl

/-- A SELECT counts what the request sees, and no statement undoes that. -/
theorem AllCounted.exec (fits : Fits c db l) (rollsUp : RollsUp c invoiceId db l)
    (h : AllCounted c invoiceId db l) {s : Statement} {ws : List Row} {m : Stage}
    (does : Does c l.stage s (l.view (engine S) db) ws m) :
    AllCounted c invoiceId db ⟨m, l.writes ++ ws, l.trace ++ [(s, l.view (engine S) db)]⟩ := by
  intro v read
  rcases does.payment with same | ⟨id, patch, deciding, update⟩
  · have payments : (m.rows.foldl Row.apply db).payments =
        (l.stage.rows.foldl Row.apply db).payments := by
      rw [Stage.view_payments, Stage.view_payments, same]
    have confirmed : (m.rows.foldl Row.apply db).confirmedPayments c invoiceId =
        (l.stage.rows.foldl Row.apply db).confirmedPayments c invoiceId := by
      rw [Db.confirmedPayments, payments]
      rfl
    rcases List.mem_append.1 read with read | read
    · refine ⟨fun q own => (h v read).own q (same.symm.trans own), ?_⟩
      change Remain _ ((m.rows.foldl Row.apply db).confirmedPayments c invoiceId)
      rw [confirmed]
      exact (h v read).kept
    · obtain ⟨-, rfl⟩ := Prod.mk.inj (List.mem_singleton.1 read)
      rw [fits.view]
      constructor
      · intro q own here
        have own : l.stage.payment = some q := same.symm.trans own
        exact mem_confirmedPayments.2 ⟨Stage.mem_view.2 (.inl own), fits.payment_company own, here,
          rollsUp.confirms q own⟩
      · change Remain _ ((m.rows.foldl Row.apply db).confirmedPayments c invoiceId)
        rw [confirmed]
        exact .refl _
  · have unsummed : Unsummed c invoiceId l.trace := by
      rw [RollsUp, deciding] at rollsUp
      exact rollsUp.2
    rcases List.mem_append.1 read with read | read
    · exact absurd read (unsummed v)
    · have select := (Prod.mk.inj (List.mem_singleton.1 read)).1
      rw [update] at select
      cases select

/-- Once its own payment is confirmed, a sum calls for something. -/
theorem nextStatus_counted {v : Db} {q : Payment} (total : Numeric 10 2)
    (positive : ∀ p ∈ v.payments.rows, p.companyId = c → p.invoiceId = invoiceId →
      0 < p.amount.units)
    (counts : q ∈ v.confirmedPayments c invoiceId) :
    ∃ status, nextStatus total (v.confirmedPayments c invoiceId) = some status := by
  have amounts := confirmedPayments_amounts positive
  have one : Remain [q] (v.confirmedPayments c invoiceId) := by
    intro p hp
    obtain rfl := List.mem_singleton.1 hp
    exact ⟨p, counts, .refl p⟩
  have le := one.sum_le (List.nodup_singleton _) amounts
  obtain ⟨stored, company, invoice, -⟩ := mem_confirmedPayments.1 counts
  have own := positive q stored company invoice
  rw [List.map_singleton, List.sum_singleton] at le
  rw [nextStatus_eq total amounts]
  split
  · exact ⟨_, rfl⟩
  · rw [if_pos (by omega)]
    exact ⟨_, rfl⟩

/-- A statement keeps what its `confirm` has found out. -/
theorem RollsUp.exec (fits : Fits c db l) (backed : db.Backed c invoiceId)
    (positive : ∀ p ∈ db.payments.rows, p.companyId = c → p.invoiceId = invoiceId →
      0 < p.amount.units)
    (h : RollsUp c invoiceId db l) {s : Statement} {ws : List Row} {m : Stage}
    (does : Does c l.stage s (l.view (engine S) db) ws m) :
    RollsUp c invoiceId db ⟨m, l.writes ++ ws, l.trace ++ [(s, l.view (engine S) db)]⟩ := by
  have view := fits.view (S := S)
  have later := fits.positive positive
  have company := fun q => fits.payment_company (q := q)
  obtain ⟨stage, ws', tr⟩ := l
  simp only at does view later company
  have last : (s, Live.view (engine S) db ⟨stage, ws', tr⟩) ∈
      tr ++ [(s, Live.view (engine S) db ⟨stage, ws', tr⟩)] :=
    List.mem_append_right _ (List.mem_singleton_self _)
  cases does with
  | pending asks =>
    cases asks with
    | confirm =>
      refine ⟨rfl, fun v read => ?_⟩
      rcases List.mem_append.1 read with read | read
      · exact h v read
      · cases (Prod.mk.inj (List.mem_singleton.1 read)).1
    | reject => exact h.elim
  | confirm => exact h.1
  | reject found rejected => exact absurd (h.1.symm.trans rejected) (by decide)
  | roll found alive =>
    refine ⟨h, ?_⟩
    rintro rfl
    rw [view, Stage.view_invoice?] at found
    exact ⟨⟨_, found, rfl⟩, (backed _ found).2⟩
  | sum calls new =>
    refine ⟨h.1, rfl, ?_⟩
    rintro rfl
    exact ⟨(h.2 rfl).1, _, last, calls⟩
  | draft | company | alive => exact h.elim
  | @move q id i patch v j found =>
    cases q with
    | none => exact h.elim
    | some q =>
      obtain ⟨status, own, knows⟩ := h
      have same : j.id = id := Db.invoice?_id found
      refine ⟨status, same.trans own, ?_⟩
      rintro rfl
      obtain ⟨⟨j', found', total⟩, calls⟩ := knows same.symm
      rw [view, Stage.view_invoice?] at found
      have found : db.invoice? c id = some j := found
      have : j' = j := by
        rw [← same] at found
        exact Option.some.inj (found'.symm.trans found)
      subst this
      exact total ▸ calls.mono
  | close settled =>
    cases stage with
    | start v => trivial
    | deciding | issuing => trivial
    | moving => exact settled.elim
    | rolling q =>
      obtain ⟨rfl, gone⟩ := settled
      refine ⟨h, ?_⟩
      rintro rfl j found
      rw [view] at gone
      refine absurd (gone j ?_) (backed j found).1
      rw [Stage.view_invoice?]
      exact found
    | summing q i =>
      obtain ⟨rfl, calls⟩ := settled
      refine ⟨h.1, ?_⟩
      rintro rfl j found
      obtain ⟨⟨j', found', total⟩, backs⟩ := h.2 rfl
      obtain rfl : j' = j := Option.some.inj (found'.symm.trans found)
      have counts : q ∈ (Live.view (engine S) db ⟨Stage.summing q i, ws', tr⟩).confirmedPayments c
          q.invoiceId := by
        rw [view]
        exact mem_confirmedPayments.2 ⟨Stage.mem_view.2 (.inl rfl), company q rfl, rfl, h.1⟩
      obtain ⟨status, called⟩ := nextStatus_counted i.total (view ▸ later) counts
      obtain rfl := calls status called
      exact ⟨_, ⟨_, last, total ▸ called⟩, total ▸ backs⟩
    | closing q r =>
      cases q with
      | none => cases r <;> exact h
      | some q =>
        cases r with
        | some r => exact ⟨h.1, h.2.1, fun here => (h.2.2 here).mono⟩
        | none =>
          refine ⟨h.1, fun here j found => ?_⟩
          obtain ⟨status, calls, backs⟩ := h.2 here j found
          exact ⟨status, calls.mono, backs⟩

/-! ### Commits -/

/-- A sum that was not overtaken is the exact sum at the COMMIT. -/
theorem Counted.paid_eq (fits : Fits c db l) {v : Db} (counted : Counted c invoiceId db l v)
    (positive : ∀ p ∈ db.payments.rows, p.companyId = c → p.invoiceId = invoiceId →
      0 < p.amount.units)
    (read : (⟨c, .paymentFindConfirmed invoiceId⟩, v) ∈ l.trace)
    (unovertaken : Unovertaken c invoiceId db l.trace) :
    v.paid c invoiceId = (l.stage.rows.foldl Row.apply db).paid c invoiceId := by
  have amounts := confirmedPayments_amounts (fits.positive positive)
  have amounts' : ∀ p ∈ v.confirmedPayments c invoiceId, 0 ≤ p.amount.units := by
    intro p hp
    obtain ⟨p', hp', same⟩ := counted.kept p hp
    rw [← same.amount]
    exact amounts p' hp'
  have back : Remain ((l.stage.rows.foldl Row.apply db).confirmedPayments c invoiceId)
      (v.confirmedPayments c invoiceId) := by
    intro p hp
    obtain ⟨seen, company, invoice, status⟩ := mem_confirmedPayments.1 hp
    rcases Stage.mem_view.1 seen with own | ⟨stored, -⟩
    · exact ⟨p, counted.own p own invoice, .refl p⟩
    · -- It was there at the SELECT, and is the same payment.
      obtain ⟨p', hp', same⟩ := unovertaken _ read rfl p
        (mem_confirmedPayments.2 ⟨stored, company, invoice, status⟩)
      obtain ⟨p'', hp'', later⟩ := counted.kept p' hp'
      obtain rfl : p'' = p := (l.stage.rows.foldl Row.apply db).payments.key_inj
        (mem_confirmedPayments.1 hp'').1 seen (later.id.trans same)
      exact ⟨p', hp', ⟨later.id.symm, later.companyId.symm, later.invoiceId.symm,
        later.tenantId.symm, later.amount.symm, later.idempotencyKey.symm⟩⟩
  exact le_antisymm (counted.kept.sum_le (confirmedPayments_distinct v c invoiceId) amounts)
    (back.sum_le (confirmedPayments_distinct _ c invoiceId) amounts')

/-- The status that an exact sum calls for. -/
def Calls (total : Numeric 10 2) (paid : Int) (status : InvoiceStatus) : Prop :=
  total.units ≤ paid ∧ status = .paid ∨
    0 < paid ∧ paid < total.units ∧ status = .partially_paid

theorem nextStatus_calls {total : Numeric 10 2} {status : InvoiceStatus}
    (amounts : ∀ p ∈ db.confirmedPayments c invoiceId, 0 ≤ p.amount.units)
    (calls : nextStatus total (db.confirmedPayments c invoiceId) = some status) :
    Calls total (db.paid c invoiceId) status := by
  rw [nextStatus_eq total amounts] at calls
  unfold Calls Db.paid
  split at calls
  · cases calls
    exact .inl ⟨‹_›, rfl⟩
  · split at calls
    · cases calls
      exact .inr ⟨‹_›, by omega, rfl⟩
    · cases calls

/-- A sum that a request has read calls, at its COMMIT, for what the exact sum does. -/
theorem CallsFor.paid (fits : Fits c db l) (counted : AllCounted c invoiceId db l)
    (positive : ∀ p ∈ db.payments.rows, p.companyId = c → p.invoiceId = invoiceId →
      0 < p.amount.units)
    (unovertaken : Unovertaken c invoiceId db l.trace) {total : Numeric 10 2}
    {status : InvoiceStatus} (calls : CallsFor c invoiceId l.trace total status) :
    Calls total ((l.stage.rows.foldl Row.apply db).paid c invoiceId) status := by
  obtain ⟨v, read, calls⟩ := calls
  rw [← (counted v read).paid_eq fits positive read unovertaken]
  refine nextStatus_calls (fun p hp => ?_) calls
  obtain ⟨p', hp', same⟩ := (counted v read).kept p hp
  rw [← same.amount]
  exact confirmedPayments_amounts (fits.positive positive) p' hp'

/-- An invoice with the status that its payments call for. -/
theorem Calls.agrees {i : Invoice} (h : Calls i.total (db.paid c invoiceId) i.status)
    (only : ∀ j, db.invoice? c invoiceId = some j → j = i) :
    db.Agrees c invoiceId ∧ db.Backed c invoiceId := by
  constructor
  · intro j found
    obtain rfl := only j found
    rcases h with ⟨covers, status⟩ | ⟨positive, less, status⟩
    · exact ⟨fun _ => status, fun _ less => absurd covers (by omega)⟩
    · exact ⟨fun covers => absurd covers (by omega), fun _ _ => status⟩
  · intro j found
    obtain rfl := only j found
    rcases h with ⟨covers, status⟩ | ⟨positive, less, status⟩
    · rw [status]
      exact ⟨by decide, fun _ => covers, fun e => absurd e (by decide)⟩
    · rw [status]
      exact ⟨by decide, fun e => absurd e (by decide), fun _ => positive⟩

/-- The status that the committed payments stand behind and that more payments still call
for is the one the invoice has. -/
theorem Calls.stored {i : Invoice} {status : InvoiceStatus}
    (calls : Calls i.total (db'.paid c invoiceId) status)
    (backs : db.Backs c invoiceId i.total status) (agrees : db.Agrees c invoiceId)
    (grows : db.paid c invoiceId ≤ db'.paid c invoiceId)
    (found : db.invoice? c invoiceId = some i) :
    Calls i.total (db'.paid c invoiceId) i.status := by
  obtain ⟨full, part⟩ := agrees i found
  rcases calls with ⟨covers, rfl⟩ | ⟨positive, less, rfl⟩
  · exact .inl ⟨covers, full (backs.paid rfl)⟩
  · exact .inr ⟨positive, less, part (backs.partially_paid rfl) (by omega)⟩

/-- The invoice that a request has not written. -/
theorem Stage.view_other {m : Stage} (other : ∀ r, m.invoice = some r → r.id ≠ invoiceId) :
    (m.rows.foldl Row.apply db).invoice? c invoiceId = db.invoice? c invoiceId := by
  rw [Stage.view_invoice?]
  cases own : m.invoice with
  | none => rfl
  | some r => exact if_neg fun same => other r own same.symm

/-- A payment of another invoice changes nothing. -/
theorem commit_elsewhere (fits : Fits c db l)
    (confirms : ∀ q, l.stage.payment = some q → q.status = .confirmed)
    (positive : ∀ p ∈ db.payments.rows, p.companyId = c → p.invoiceId = invoiceId →
      0 < p.amount.units)
    (backed : db.Backed c invoiceId) (agrees : db.Agrees c invoiceId)
    (payment : ∀ q, l.stage.payment = some q → q.invoiceId ≠ invoiceId)
    (invoice : ∀ r, l.stage.invoice = some r → r.id ≠ invoiceId) :
    (l.stage.rows.foldl Row.apply db).Agrees c invoiceId ∧
      (l.stage.rows.foldl Row.apply db).Backed c invoiceId := by
  have grows : db.paid c invoiceId ≤ (l.stage.rows.foldl Row.apply db).paid c invoiceId :=
    fits.paid_le confirms positive
  have back : Remain ((l.stage.rows.foldl Row.apply db).confirmedPayments c invoiceId)
      (db.confirmedPayments c invoiceId) := by
    intro p hp
    obtain ⟨seen, company, here, status⟩ := mem_confirmedPayments.1 hp
    rcases Stage.mem_view.1 seen with own | ⟨stored, -⟩
    · exact absurd here (payment p own)
    · exact ⟨p, mem_confirmedPayments.2 ⟨stored, company, here, status⟩, .refl p⟩
  have paid : (l.stage.rows.foldl Row.apply db).paid c invoiceId = db.paid c invoiceId :=
    le_antisymm (back.sum_le (confirmedPayments_distinct _ c invoiceId)
      (confirmedPayments_amounts positive)) grows
  constructor
  · intro i found
    rw [paid]
    exact agrees i ((Stage.view_other invoice).symm.trans found)
  · intro i found
    obtain ⟨alive, backs⟩ := backed i ((Stage.view_other invoice).symm.trans found)
    exact ⟨alive, backs.mono grows⟩

/-- What a COMMIT whose sums were not overtaken makes of the invoice. -/
theorem commit_agrees (fits : Fits c db l) (rollsUp : RollsUp c invoiceId db l)
    (counted : AllCounted c invoiceId db l) (ready : ∃ q r, l.stage = .closing q r)
    (positive : ∀ p ∈ db.payments.rows, p.companyId = c → p.invoiceId = invoiceId →
      0 < p.amount.units)
    (backed : db.Backed c invoiceId) (agrees : db.Agrees c invoiceId)
    (unovertaken : Unovertaken c invoiceId db l.trace) :
    (l.stage.rows.foldl Row.apply db).Agrees c invoiceId ∧
      (l.stage.rows.foldl Row.apply db).Backed c invoiceId := by
  have confirms := rollsUp.confirms
  have elsewhere := commit_elsewhere fits confirms positive backed agrees
  have grows : db.paid c invoiceId ≤ (l.stage.rows.foldl Row.apply db).paid c invoiceId :=
    fits.paid_le confirms positive
  have sums : ∀ {total status}, CallsFor c invoiceId l.trace total status →
      Calls total ((l.stage.rows.foldl Row.apply db).paid c invoiceId) status :=
    fun calls => calls.paid fits counted positive unovertaken
  have company := fun r => fits.invoice_company (r := r)
  have view := fun m => Stage.view_invoice? m db c invoiceId
  obtain ⟨stage, ws, tr⟩ := l
  obtain ⟨q, r, rfl⟩ := ready
  simp only at sums elsewhere grows company ⊢
  cases q with
  | none =>
    cases r with
    | none => exact elsewhere (fun q own => by cases own) fun r own => by cases own
    | some r => exact rollsUp.elim
  | some q =>
    cases r with
    | some r =>
      obtain ⟨-, own, called⟩ := rollsUp
      by_cases here : r.id = invoiceId
      · -- The status is the one its sum called for.
        apply (sums (called here)).agrees
        intro i found
        rw [view] at found
        simp only [Stage.invoice, here, company r rfl, if_true, Option.some.injEq] at found
        exact found.symm
      · apply elsewhere
        · intro q' own' same
          obtain rfl : q = q' := Option.some.inj own'
          exact here (own.trans same)
        · intro r' own'
          obtain rfl : r = r' := Option.some.inj own'
          exact here
    | none =>
      obtain ⟨-, called⟩ := rollsUp
      by_cases here : q.invoiceId = invoiceId
      · -- It keeps its status, which the committed payments stood behind already.
        have kept : ((Stage.closing (some q) none).rows.foldl Row.apply db).invoice? c invoiceId =
            db.invoice? c invoiceId := Stage.view_other fun r own => by cases own
        cases stored : db.invoice? c invoiceId with
        | none =>
          have gone := kept.trans stored
          constructor
          all_goals
            intro i found
            cases gone.symm.trans found
        | some i =>
          obtain ⟨status, calls, backs⟩ := called here i stored
          apply ((sums calls).stored backs agrees grows stored).agrees
          intro j found
          exact Option.some.inj (found.symm.trans (kept.trans stored))
      · apply elsewhere
        · intro q' own'
          obtain rfl : q = q' := Option.some.inj own'
          exact here
        · intro r own
          cases own

variable [DecidableEq ι] {w w' : World billing ι Stage} {e : Event billing ι}

theorem step_consistent (hx : w.Exclusive (engine S)) (h : Consistent c invoiceId w)
    (unovertaken : CommitsUnovertaken c invoiceId w e)
    (step : World.Step (engine S) (verbs c) w e w') : Consistent c invoiceId w' := by
  have fits := step_fits hx h.fits step
  have rollsUp : ∀ t l, w'.live t = some l → RollsUp c invoiceId w'.db l := by
    refine step.live h.rollsUp (fun t l s ws m here _ does => ?_) (fun t l j m here does => ?_)
      fun t l u r here _ _ hr _ => ?_
    · exact (h.rollsUp t l here).exec (h.fits t l here) h.backed h.positive does
    · cases does
      exact h.rollsUp t l here
    · have fit := h.fits t l here
      rw [fit.view]
      exact (h.rollsUp u r hr).later (fun j found => fit.total found)
        (fun j found => fit.invoice_before found)
        (fit.paid_le (h.rollsUp t l here).confirms h.positive)
  have counted : ∀ t l, w'.live t = some l → AllCounted c invoiceId w'.db l := by
    refine step.live h.counted (fun t l s ws m here _ does => ?_) (fun t l j m here does => ?_)
      fun t l u r here _ _ hr _ => ?_
    · exact (h.counted t l here).exec (h.fits t l here) (h.rollsUp t l here) does
    · cases does
      exact h.counted t l here
    · have fit := h.fits t l here
      rw [fit.view]
      exact (h.counted u r hr).later (fit.keeps (h.rollsUp t l here).confirms)
  cases step with
  | exec | emit | drop => exact ⟨fits, rollsUp, counted, h.positive, h.backed, h.agrees⟩
  | commit t l here ready =>
    have fit := h.fits t l here
    have view := fit.view (S := S)
    have after := commit_agrees fit (h.rollsUp t l here) (h.counted t l here) ready h.positive
      h.backed (h.agrees w.db List.mem_cons_self) (unovertaken l here)
    have positive := fit.positive h.positive
    rw [← view] at after positive
    refine ⟨fits, rollsUp, counted, positive, after.2, fun d hd => ?_⟩
    rcases List.mem_cons.1 hd with rfl | hd
    · exact after.1
    · exact h.agrees d hd

end invariant

/-- An issued invoice with something to pay and pending payments only. -/
theorem agrees_of_pending {db : Db} {c invoiceId : Id}
    (issued : ∀ i, db.invoice? c invoiceId = some i → i.status = .issued ∧ 0 < i.total.units)
    (pending : db.confirmedPayments c invoiceId = []) :
    db.Agrees c invoiceId ∧ db.Backed c invoiceId := by
  have nothing : db.paid c invoiceId = 0 := by
    rw [Db.paid, pending]
    rfl
  constructor
  · intro i found
    have := (issued i found).2
    exact ⟨fun covers => absurd covers (by omega), fun positive => absurd positive (by omega)⟩
  · intro i found
    rw [(issued i found).1]
    exact ⟨by decide, fun e => absurd e (by decide), fun e => absurd e (by decide)⟩

/-- **The rollup agrees with the payment rows** in every committed state of
every run of `confirm` in which nobody else confirms a payment of the invoice
between a request's SELECT of the confirmed ones and its COMMIT. -/
theorem rollup_agrees {ι : Type} [Fintype ι] [DecidableEq ι] (S : Server) (ctx : Ctx)
    (invoiceId : Id) (now : ι → Instant) (id confirmedByUserId : ι → Id) (db : Db)
    (positive : ∀ p ∈ db.payments.rows, p.companyId = ctx.companyId → p.invoiceId = invoiceId →
      0 < p.amount.units)
    (backed : db.Backed ctx.companyId invoiceId) (agrees : db.Agrees ctx.companyId invoiceId)
    (as : List (Action ι)) (c : Config billing ι Payment)
    (run : (Config.start db fun t => confirm ctx (now t) (id t) (confirmedByUserId t)).run
      (engine S) as = some c)
    (unovertaken : (Config.start db fun t => confirm ctx (now t) (id t) (confirmedByUserId t)).Along
      (engine S) (SumsUnovertaken ctx.companyId invoiceId) as) :
    ∀ d ∈ c.db :: c.past, d.Agrees ctx.companyId invoiceId := by
  have follows : ∀ t, (confirm ctx (now t) (id t) (confirmedByUserId t)).Follows (engine S)
      (verbs ctx.companyId) (.start (.confirm (now t) (id t) (confirmedByUserId t))) := by
    intro t
    have ret := follows_confirm S ctx (now t) (id t) (confirmedByUserId t) (f := Prog.ret)
      fun _ q r => ⟨q, r, rfl⟩
    rwa [Prog.bind_pure] at ret
  have first : Consistent ctx.companyId invoiceId
      (World.start db fun t => .start (.confirm (now t) (id t) (confirmedByUserId t))) := by
    refine ⟨start_fits db _, fun t l hl => ?_, fun t l hl => ?_, positive, backed, fun d hd => ?_⟩
    · cases hl
      exact fun v read => nomatch read
    · cases hl
      exact fun v read => nomatch read
    · cases List.mem_singleton.1 hd
      exact agrees
  obtain ⟨w, refines, -, consistent⟩ := run_world (SumsUnovertaken ctx.companyId invoiceId)
    (CommitsUnovertaken ctx.companyId invoiceId)
    (fun _ _ _ _ refines sums shows => sums.shows refines shows)
    (fun _ _ _ hx h sums step => step_consistent hx h sums step) as _ c _
    (Refines.start follows) (World.start_exclusive _ db _) first unovertaken run
  rw [refines.db, refines.past]
  exact consistent.agrees

namespace Demo

/-- An invoice of 100 baht with two pending payments of 60. -/
def overpaid : Db :=
  db [invoice 1 11 (baht 100) .issued]
    [payment 5 1 11 (baht 60) "key-of-payment-5", payment 6 1 11 (baht 60) "key-of-payment-6"]

def confirms : Config billing (Fin 2) Payment :=
  Config.start overpaid fun t => confirm ctx 0 (5 + t) 7

/-- One after the other. -/
def inTurn : List (Action (Fin 2)) := List.replicate 9 (.advance 0) ++ List.replicate 9 (.advance 1)

/-- The second one sums before the first one's COMMIT. -/
def crossing : List (Action (Fin 2)) :=
  List.replicate 4 (.advance 0) ++ List.replicate 4 (.advance 1) ++ List.replicate 5 (.advance 0) ++
    List.replicate 5 (.advance 1)

/-- What the client and the database know about the invoice in the end. -/
def outcome (c : Config billing (Fin 2) Payment) : List Bool × Option InvoiceStatus × Int :=
  ([(0 : Fin 2), 1].map fun t => match c.txs t with
    | .committed _ => true
    | _ => false, (c.db.invoice? 1 1).map Invoice.status, c.db.paid 1 1)

end Demo

/-- Two confirmations in turn. -/
theorem rollup_agrees_in_turn :
    (Demo.confirms.run (engine Demo.server) Demo.inTurn).map Demo.outcome =
      some ([true, true], some .paid, 12000) ∧
    ∀ c, Demo.confirms.run (engine Demo.server) Demo.inTurn = some c →
      ∀ d ∈ c.db :: c.past, d.Agrees 1 1 := by
  have start : Demo.overpaid.Agrees 1 1 ∧ Demo.overpaid.Backed 1 1 :=
    agrees_of_pending (by rintro i ⟨⟩; decide) rfl
  exact ⟨by decide, fun c run =>
    rollup_agrees Demo.server Demo.ctx 1 (fun _ => 0) (fun t : Fin 2 => 5 + t) (fun _ => 7)
      Demo.overpaid (by decide) start.2 start.1 Demo.inTurn c run (by decide)⟩

/-- Both confirmations go through, 120 of 100 baht are confirmed, and the
invoice is partially paid. -/
theorem crossing_confirms_disagree :
    (Demo.confirms.run (engine Demo.server) Demo.crossing).map Demo.outcome =
      some ([true, true], some .partially_paid, 12000) ∧
    (Demo.overpaid.invoice? 1 1).map (fun i => i.total.units) = some 10000 := by
  decide

end Dormitory
