import Dormitory.Calendar
import Dormitory.Growth
import Dormitory.Txn.Serial
import Mathlib.Algebra.BigOperators.Group.Finset.Basic
import Mathlib.Data.Fintype.EquivFin

/-!
# DashboardService

The revenue figures of `modules/dashboard/dashboard.service.ts`. A confirmed
payment counts for the Bangkok month its `paidAt` falls in. The months split
time without gaps; only what `periodStartUtc` makes of a year below 100 is
counted twice or lies outside of every month, and a payment without a `paidAt`
counts for none.
-/

namespace Dormitory

/-- `periodStartUtc`. -/
def periodStartUtc (p : Period) : Instant := fromBangkok p.year p.month 1

/-- `periodEndUtc`, the start of the next period. -/
def periodEndUtc (p : Period) : Instant := fromBangkok p.next.1 p.next.2 1

structure DashboardRevenue where
  confirmed : Int
  pendingConfirm : Int
  deriving DecidableEq, Repr

namespace DashboardService

/-- `aggregate({ _sum: { amount: true } })`: null when no row matches. -/
def sumAmount (rows : List Payment) : Option Decimal :=
  if rows.isEmpty then none else some (satang (rows.map fun p => p.amount.units).sum)

/-- `paidAt: { gte: monthStart, lt: monthEnd }`; null matches nothing. -/
def paidIn (monthStart monthEnd : Instant) (p : Payment) : Bool :=
  match p.paidAt with
  | some t => monthStart ≤ t && t < monthEnd
  | none => false

/-- The `revenue` of `getSummary` for the current period, in satang. -/
def revenue (c : Id) (db : Db) (period : Period) : DashboardRevenue :=
  let visible := db.payments.rows.filter fun p => p.companyId = c
  let confirmedAgg := sumAmount (visible.filter fun p =>
    p.status = .confirmed && paidIn (periodStartUtc period) (periodEndUtc period) p)
  let pendingAgg := sumAmount (visible.filter fun p => p.status = .pending)
  { confirmed := toStorage (confirmedAgg.getD moneyZero)
    pendingConfirm := toStorage (pendingAgg.getD moneyZero) }

end DashboardService

/-! ## The months -/

/-- The start of the `k`-th month since January of the year 0. -/
def monthStart (k : Nat) : Instant := fromBangkok (k / 12) (k % 12 + 1) 1

namespace Period

def position (p : Period) : Nat := p.year * 12 + (p.month - 1)

def ofPosition (k : Fin 120000) : Period := ⟨k / 12, k % 12 + 1, by omega⟩

def equivPosition : Period ≃ Fin 120000 where
  toFun p := ⟨p.position, by have := p.valid; unfold position; omega⟩
  invFun := ofPosition
  left_inv p := by
    obtain ⟨year, month, valid⟩ := p
    simp only [position, ofPosition, mk.injEq]
    omega
  right_inv k := by
    apply Fin.ext
    simp only [position, ofPosition]
    omega

instance : Fintype Period := .ofEquiv _ equivPosition.symm

theorem position_lt (p : Period) : p.position < 120000 := (equivPosition p).isLt

theorem position_inj {p q : Period} (h : p.position = q.position) : p = q :=
  equivPosition.injective (Fin.ext h)

theorem position_ofPosition (k : Fin 120000) : (ofPosition k).position = k :=
  congrArg Fin.val (equivPosition.apply_symm_apply k)

end Period

theorem periodStartUtc_eq (p : Period) : periodStartUtc p = monthStart p.position := by
  have := p.valid
  unfold periodStartUtc monthStart Period.position
  congr 1 <;> omega

theorem periodEndUtc_eq (p : Period) : periodEndUtc p = monthStart (p.position + 1) := by
  unfold periodEndUtc monthStart Period.position Period.next
  rfl

theorem bangkokOffset_range (c : Civil) :
    24124000 ≤ bangkokOffset c ∧ bangkokOffset c ≤ 25200000 := by
  unfold bangkokOffset
  split <;> omega

/-- From the year 100 on a month starts after the one before it. -/
theorem monthStart_lt {k : Nat} (h : 1200 ≤ k) : monthStart k < monthStart (k + 1) := by
  have century : ¬ k / 12 < 100 := by omega
  have century' : ¬ (k + 1) / 12 < 100 := by omega
  have longer : Civil.days ⟨k / 12, k % 12 + 1, 1⟩ + 28 ≤
      Civil.days ⟨((k + 1) / 12 : Nat), (k + 1) % 12 + 1, 1⟩ := by
    by_cases december : k % 12 = 11
    · rw [show (k + 1) / 12 = k / 12 + 1 by omega, show (k + 1) % 12 = 0 by omega, december]
      exact Civil.days_december _
    · rw [show (k + 1) / 12 = k / 12 by omega, show (k + 1) % 12 + 1 = k % 12 + 1 + 1 by omega]
      exact Civil.days_month _ (by omega) (by omega)
  have early := bangkokOffset_range ⟨k / 12, k % 12 + 1, 1⟩
  have late := bangkokOffset_range ⟨((k + 1) / 12 : Nat), (k + 1) % 12 + 1, 1⟩
  simp only [monthStart, fromBangkok, century, century', if_false, millisPerDay]
  change (_ : Int) < (_ : Int)
  push_cast at *
  omega

/-- A year below 100 stands for one of the twentieth century. -/
theorem monthStart_century {k : Nat} (h : k < 1200) : monthStart k = monthStart (k + 22800) := by
  have year : (k + 22800) / 12 = k / 12 + 1900 := by omega
  have month : (k + 22800) % 12 = k % 12 := by omega
  have century : k / 12 < 100 := by omega
  have later : ¬ k / 12 + 1900 < 100 := by omega
  simp only [monthStart, fromBangkok, year, month, century, later, if_true, if_false]
  push_cast
  rw [add_comm]

theorem monthStart_le {k l : Nat} (h : 1200 ≤ k) (le : k ≤ l) : monthStart k ≤ monthStart l := by
  induction l, le using Nat.le_induction with
  | base => exact Int.le_refl _
  | succ l le ih => exact ih.trans (monthStart_lt (show 1200 ≤ l by omega)).le

/-- Some month between two others has the instant. -/
theorem exists_month {k l : Nat} {t : Instant} (le : k ≤ l) (start : monthStart k ≤ t)
    (stop : t < monthStart l) : ∃ m, k ≤ m ∧ m < l ∧ monthStart m ≤ t ∧ t < monthStart (m + 1) := by
  induction l, le using Nat.le_induction with
  | base => exact absurd stop (not_lt.mpr start)
  | succ l le ih =>
    by_cases earlier : t < monthStart l
    · obtain ⟨m, low, high, within⟩ := ih earlier
      exact ⟨m, low, by omega, within⟩
    · exact ⟨l, le, by omega, not_lt.mp earlier, stop⟩

/-- Of two months one ends before the other starts. -/
theorem month_unique {k l : Nat} {t : Instant} (hk : 1200 ≤ k) (hl : 1200 ≤ l)
    (within : monthStart k ≤ t ∧ t < monthStart (k + 1))
    (within' : monthStart l ≤ t ∧ t < monthStart (l + 1)) : k = l := by
  by_contra other
  rcases Nat.lt_or_gt_of_ne other with before | after
  · have := monthStart_le (show 1200 ≤ k + 1 by omega) (show k + 1 ≤ l from before)
    exact absurd (within'.1.trans_lt within.2) (not_lt.mpr this)
  · have := monthStart_le (show 1200 ≤ l + 1 by omega) (show l + 1 ≤ k from after)
    exact absurd (within.1.trans_lt within'.2) (not_lt.mpr this)

namespace Period

/-- The month of the period, as the dashboard bounds it, has the instant. -/
def Has (p : Period) (t : Instant) : Prop := periodStartUtc p ≤ t ∧ t < periodEndUtc p

instance (p : Period) (t : Instant) : Decidable (p.Has t) :=
  inferInstanceAs (Decidable (_ ∧ _))

theorem has_iff {p : Period} {t : Instant} :
    p.Has t ↔ monthStart p.position ≤ t ∧ t < monthStart (p.position + 1) := by
  rw [Has, periodStartUtc_eq, periodEndUtc_eq]

/-- In Bangkok the instant lies in one of the years 100 to 1899, in December
1999 or in one of the years 2000 to 9999. -/
def Dated (t : Instant) : Prop :=
  monthStart 1200 ≤ t ∧ t < monthStart 22800 ∨ monthStart 23999 ≤ t ∧ t < monthStart 120000

instance (t : Instant) : Decidable (Dated t) := inferInstanceAs (Decidable (_ ∨ _))

/-- A period of a year below 100 has no dated instant. -/
theorem Dated.late {t : Instant} (h : Dated t) {p : Period} (has : p.Has t) :
    1200 ≤ p.position := by
  rw [has_iff] at has
  by_contra early
  have december : monthStart 1199 = monthStart 23999 := monthStart_century (by omega)
  have century : monthStart 1200 ≤ monthStart 23999 := monthStart_le (by omega) (by omega)
  by_cases last : p.position = 1199
  · rw [last, december] at has
    exact absurd (has.1.trans_lt has.2) (not_lt.mpr century)
  · rw [monthStart_century (by omega),
      monthStart_century (show p.position + 1 < 1200 by omega)] at has
    have from1900 : monthStart 22800 ≤ monthStart (p.position + 22800) :=
      monthStart_le (by omega) (by omega)
    have to1999 : monthStart (p.position + 1 + 22800) ≤ monthStart 23999 :=
      monthStart_le (by omega) (by omega)
    cases h with
    | inl before => exact absurd (from1900.trans has.1) (not_le.mpr before.2)
    | inr after => exact absurd (after.1.trans_lt has.2) (not_lt.mpr to1999)

/-- **The months are a partition**: a dated instant lies in exactly one period. -/
theorem Dated.exists_unique {t : Instant} (h : Dated t) : ∃! p : Period, p.Has t := by
  have bounds : monthStart 1200 ≤ t ∧ t < monthStart 120000 := by
    cases h with
    | inl before => exact ⟨before.1, before.2.trans_le (monthStart_le (by omega) (by omega))⟩
    | inr after => exact ⟨(monthStart_le (by omega) (by omega)).trans after.1, after.2⟩
  obtain ⟨k, low, high, within⟩ := exists_month (by omega) bounds.1 bounds.2
  refine ⟨ofPosition ⟨k, high⟩, ?_, ?_⟩
  · change (ofPosition ⟨k, high⟩).Has t
    rw [has_iff, position_ofPosition]
    exact within
  · intro p has
    have late := h.late has
    rw [has_iff] at has
    apply position_inj
    rw [position_ofPosition]
    exact month_unique late low has within

/-- An instant before them, after them, or of the years that a year below 100
stands for, lies in no period or in two. -/
theorem Dated.of_unique {t : Instant} (h : ∃! p : Period, p.Has t) : Dated t := by
  obtain ⟨p, has, only⟩ := h
  have has : p.Has t := has
  have bounds : monthStart 1200 ≤ t ∧ t < monthStart 120000 := by
    rw [has_iff] at has
    have range := p.position_lt
    by_cases late : 1200 ≤ p.position
    · exact ⟨(monthStart_le (Nat.le_refl _) late).trans has.1,
        has.2.trans_le (monthStart_le (by omega) (by omega))⟩
    · by_cases last : p.position = 1199
      · have december : monthStart 1199 = monthStart 23999 := monthStart_century (by omega)
        have century : monthStart 1200 ≤ monthStart 23999 := monthStart_le (by omega) (by omega)
        rw [last, december] at has
        exact absurd (has.1.trans_lt has.2) (not_lt.mpr century)
      · rw [monthStart_century (by omega), monthStart_century (show p.position + 1 < 1200 by omega)]
          at has
        exact ⟨(monthStart_le (by omega) (by omega)).trans has.1,
          has.2.trans_le (monthStart_le (by omega) (by omega))⟩
  by_contra undated
  unfold Dated at undated
  have low : monthStart 22800 ≤ t := by
    by_contra before
    exact undated (.inl ⟨bounds.1, not_le.mp before⟩)
  have high : t < monthStart 23999 := by
    by_contra after
    exact undated (.inr ⟨not_lt.mp after, bounds.2⟩)
  obtain ⟨k, from1900, to1999, within⟩ := exists_month (by omega) low high
  -- The month counts for its own year and for the year 1900 before it.
  have own : (ofPosition ⟨k, by omega⟩).Has t := by
    rw [has_iff, position_ofPosition]
    exact within
  have short : (ofPosition ⟨k - 22800, by omega⟩).Has t := by
    rw [has_iff, position_ofPosition]
    dsimp only
    rw [monthStart_century (by omega), monthStart_century (show k - 22800 + 1 < 1200 by omega),
      show k - 22800 + 22800 = k by omega, show k - 22800 + 1 + 22800 = k + 1 by omega]
    exact within
  have same := congrArg position ((only _ own).trans (only _ short).symm)
  rw [position_ofPosition, position_ofPosition] at same
  dsimp only at same
  omega

/-- The number of periods that count the instant. -/
def months (t : Instant) : Nat := (Finset.univ.filter fun p : Period => p.Has t).card

theorem months_eq_one {t : Instant} : months t = 1 ↔ Dated t := by
  rw [months, Finset.card_eq_one]
  constructor
  · rintro ⟨p, one⟩
    apply Dated.of_unique
    have iff (q : Period) : q.Has t ↔ q = p := by
      rw [← Finset.mem_singleton, ← one, Finset.mem_filter]
      simp
    exact ⟨p, (iff p).mpr rfl, fun q has => (iff q).mp has⟩
  · intro dated
    obtain ⟨p, has, only⟩ := dated.exists_unique
    refine ⟨p, Finset.ext fun q => ?_⟩
    rw [Finset.mem_filter, Finset.mem_singleton]
    exact ⟨fun h => only q h.2, fun same => ⟨Finset.mem_univ q, same ▸ has⟩⟩

end Period

/-! ## Counted and confirmed -/

/-- The exact sum of the company's confirmed payments, in satang. -/
def Db.confirmedTotal (db : Db) (c : Id) : Int :=
  db.payments.total fun p =>
    if p.companyId = c ∧ p.status = .confirmed then p.amount.units else 0

namespace Payment

/-- How often the periods count the payment. -/
def counted (p : Payment) : Nat :=
  match p.paidAt with
  | some t => Period.months t
  | none => 0

/-- What the periods count of a payment of the company beyond its amount. -/
def excess (c : Id) (p : Payment) : Int :=
  if p.companyId = c ∧ p.status = .confirmed then (p.counted - 1) * p.amount.units else 0

/-- The payment has a date, and one that lies in exactly one period. -/
def Dated (p : Payment) : Prop := ∃ t, p.paidAt = some t ∧ Period.Dated t

theorem counted_eq_one {p : Payment} : p.counted = 1 ↔ p.Dated := by
  unfold counted Dated
  cases p.paidAt with
  | none => simp
  | some t => simp [Period.months_eq_one]

end Payment

namespace DashboardService

theorem toStorage_sumAmount (rows : List Payment) :
    toStorage ((sumAmount rows).getD moneyZero) = (rows.map fun p => p.amount.units).sum := by
  unfold sumAmount
  cases rows with
  | nil => rfl
  | cons p rows => exact Decimal.toStorage_satang _

theorem paidIn_iff {period : Period} {p : Payment} {t : Instant} (paid : p.paidAt = some t) :
    paidIn (periodStartUtc period) (periodEndUtc period) p = true ↔ period.Has t := by
  simp [paidIn, paid, Period.Has]

/-- A payment counts as often as there are periods that want it. -/
theorem sum_paidIn (p : Payment) : ∑ period : Period,
    (if paidIn (periodStartUtc period) (periodEndUtc period) p then p.amount.units else 0) =
      p.counted * p.amount.units := by
  unfold Payment.counted
  cases paid : p.paidAt with
  | none => simp [paidIn, paid]
  | some t =>
    simp only [paidIn_iff paid]
    rw [← Finset.sum_filter, Finset.sum_const, nsmul_eq_mul]
    rfl

/-- What one period counts of the rows. -/
theorem confirmed_eq (c : Id) (db : Db) (period : Period) : (revenue c db period).confirmed =
    db.payments.total fun p => if p.companyId = c ∧ p.status = .confirmed then
      if paidIn (periodStartUtc period) (periodEndUtc period) p then p.amount.units else 0
      else 0 := by
  simp only [revenue, toStorage_sumAmount, Table.total, List.filter_filter]
  induction db.payments.rows with
  | nil => rfl
  | cons p rows ih =>
    rw [List.map_cons, List.sum_cons, ← ih, List.filter_cons]
    by_cases company : p.companyId = c
    · by_cases confirmed : p.status = .confirmed
      · cases paidIn (periodStartUtc period) (periodEndUtc period) p <;> simp [company, confirmed]
      · simp [company, confirmed]
    · simp [company]

/-- **What the periods count** is the confirmed total and the excess of its
payments. -/
theorem sum_confirmed (c : Id) (db : Db) : ∑ period : Period, (revenue c db period).confirmed =
    db.confirmedTotal c + db.payments.total (Payment.excess c) := by
  simp only [confirmed_eq, Db.confirmedTotal, Table.total]
  induction db.payments.rows with
  | nil => simp
  | cons p rows ih =>
    simp only [List.map_cons, List.sum_cons]
    rw [Finset.sum_add_distrib, ih]
    have first : ∑ period : Period, (if p.companyId = c ∧ p.status = .confirmed then
        if paidIn (periodStartUtc period) (periodEndUtc period) p then p.amount.units else 0
        else 0) = (if p.companyId = c ∧ p.status = .confirmed then p.amount.units else 0) +
          p.excess c := by
      unfold Payment.excess
      split
      · rw [sum_paidIn, sub_mul, one_mul]
        exact (add_sub_cancel _ _).symm
      · simp
    rw [first]
    exact add_add_add_comm _ _ _ _

end DashboardService

/-! ## Histories -/

/-- Every payment of the company has a positive amount. -/
def Db.Priced (db : Db) (c : Id) : Prop :=
  ∀ p ∈ db.payments.rows, p.companyId = c → 0 < p.amount.units

/-- A confirm that goes through meets a dated payment. -/
def Request.ConfirmsDated (c : Id) (db : Db) (r : Request) : Prop :=
  match r.call with
  | .confirm _ id confirmedByUserId => r.ctx.companyId = c →
    ∀ p, db.payment? c id = some p → p.status = .pending →
      (db.users.find? confirmedByUserId).isSome → p.Dated
  | _ => True

/-- What the row puts into the excess of a company. -/
def Row.excess (c : Id) (db : Db) : Row → Int
  | .payment p => p.excess c - (db.payments.find? p.id).elim 0 (Payment.excess c)
  | _ => 0

theorem Row.excess_apply (c : Id) (db : Db) (r : Row) :
    (r.apply db).payments.total (Payment.excess c) =
      db.payments.total (Payment.excess c) + r.excess c db := by
  cases r with
  | payment p =>
    have put := db.payments.total_put p (Payment.excess c)
    simp only [Row.apply, Row.excess]
    rw [put]
    simp only [Keyed.key]
    omega
  | _ => simp [Row.apply, Row.excess]

theorem Payment.excess_other {c : Id} {p : Payment} (h : p.companyId ≠ c) : p.excess c = 0 := by
  simp [Payment.excess, h]

theorem Payment.excess_open {c : Id} {p : Payment} (h : p.status ≠ .confirmed) :
    p.excess c = 0 := by
  simp [Payment.excess, h]

/-- What a request adds to the excess of a company: that of the payment it
confirms. -/
def Request.excess (c : Id) (db : Db) (r : Request) : Int :=
  match r.call with
  | .confirm now id confirmedByUserId =>
    (PaymentService.decidedRow r.ctx.companyId db id
      (PaymentService.confirmPatch now confirmedByUserId)).elim 0 (Payment.excess c)
  | _ => 0

section
open PaymentService
variable {c company : Id} {db : Db}

/-- A decision replaces a pending payment. -/
theorem excess_decided {id : Id} {patch : PaymentPatch} {p : Payment}
    (decided : decidedRow company db id patch = some p) :
    (Row.apply db (.payment p)).payments.total (Payment.excess c) =
      db.payments.total (Payment.excess c) + p.excess c := by
  obtain ⟨old, found, pending, -, rfl⟩ := decidedRow_some decided
  have stored : db.payments.find? (patch.apply old).id = some old :=
    (Db.payment?_some.mp (Db.payment?_id found ▸ found)).1
  have none : old.excess c = 0 := Payment.excess_open (by rw [pending]; decide)
  rw [Row.excess_apply, Row.excess, stored, Option.elim_some, none, sub_zero]

/-- An insert is pending. -/
theorem excess_created {newId : Id} {input : CreatePaymentInput} {key : String} :
    ((createdRows company db newId input key).foldl Row.apply db).payments.total
      (Payment.excess c) = db.payments.total (Payment.excess c) := by
  unfold createdRows
  split
  · split
    · rename_i i _ fresh
      have new : db.payments.find? (pendingRow ⟨company⟩ newId i input key).id = none := fresh.2.2
      rw [List.foldl_cons, List.foldl_nil, Row.excess_apply, Row.excess, new, Option.elim_none,
        Payment.excess_open (by simp [pendingRow])]
      simp
    · rfl
  · rfl

/-- The rollup writes no payment. -/
theorem payments_rollup (invoiceId : Id) :
    ((rollupRows company db invoiceId).foldl Row.apply db).payments = db.payments := by
  rcases rollupRows_cases company db invoiceId with rows | ⟨i, next, -, -, -, rows⟩
  · rw [rows]
    rfl
  · rw [rows]
    rfl

theorem payments_issue (now : Instant) (id : Id) :
    ((InvoiceService.issueRows company db now id).foldl Row.apply db).payments = db.payments := by
  unfold InvoiceService.issueRows
  split
  · split
    · split <;> rfl
    · rfl
  · rfl

theorem payments_void (id : Id) :
    ((InvoiceService.voidRows company db id).foldl Row.apply db).payments = db.payments := by
  unfold InvoiceService.voidRows
  split
  · split <;> rfl
  · rfl

end

/-- A request adds its excess, and nothing else. -/
theorem Request.excess_commit (S : Server) (c : Id) (db : Db) (r : Request) :
    (r.commit S db).payments.total (Payment.excess c) =
      db.payments.total (Payment.excess c) + r.excess c db := by
  obtain ⟨ctx, queueUp, call⟩ := r
  rw [Request.commit, call.commit_eq]
  cases call with
  | create newId input key =>
    rw [BillingCall.rows, excess_created]
    exact (add_zero _).symm
  | createForTenant newId input key tenantId =>
    simp only [BillingCall.rows, PaymentService.tenantCreatedRows, Request.excess, add_zero]
    split
    · exact excess_created
    · rfl
  | confirm now id user =>
    simp only [BillingCall.rows, PaymentService.confirmRows, Request.excess]
    cases decided : PaymentService.decidedRow ctx.companyId db id
        (PaymentService.confirmPatch now user) with
    | none => simp
    | some p =>
      dsimp only
      rw [List.foldl_cons, payments_rollup, excess_decided decided, Option.elim_some]
  | reject id reason =>
    simp only [BillingCall.rows, PaymentService.rejectRows, Request.excess, add_zero]
    cases decided : PaymentService.decidedRow ctx.companyId db id
        (PaymentService.rejectPatch reason) with
    | none => rfl
    | some p =>
      dsimp only
      rw [List.foldl_cons, List.foldl_nil, excess_decided decided]
      obtain ⟨old, -, -, -, rfl⟩ := PaymentService.decidedRow_some decided
      rw [Payment.excess_open (by simp [PaymentService.rejectPatch, PaymentPatch.apply]), add_zero]
  | issue now id =>
    rw [BillingCall.rows, payments_issue]
    exact (add_zero _).symm
  | void id =>
    rw [BillingCall.rows, payments_void]
    exact (add_zero _).symm

theorem Db.Priced.put {c : Id} {db : Db} (priced : db.Priced c) {p : Payment}
    (positive : p.companyId = c → 0 < p.amount.units) : (Row.apply db (.payment p)).Priced c := by
  intro q stored company
  rcases (Table.mem_put.mp stored) with rfl | ⟨old, -⟩
  · exact positive company
  · exact priced q old company

theorem Db.Priced.of_payments {c : Id} {db db' : Db} (priced : db.Priced c)
    (same : db'.payments = db.payments) : db'.Priced c := by
  intro p stored company
  rw [same] at stored
  exact priced p stored company

section
open PaymentService
variable {c company : Id} {db : Db}

theorem Db.Priced.decided (priced : db.Priced c) {id : Id} {patch : PaymentPatch} {p : Payment}
    (decided : decidedRow company db id patch = some p) :
    (Row.apply db (.payment p)).Priced c := by
  obtain ⟨old, found, -, -, rfl⟩ := decidedRow_some decided
  exact priced.put (priced old (Table.find?_mem (Db.payment?_some.mp found).1))

theorem Db.Priced.created (priced : db.Priced c) (newId : Id) (input : CreatePaymentInput)
    (key : String) : ((createdRows company db newId input key).foldl Row.apply db).Priced c := by
  unfold createdRows
  split
  · split
    · rename_i allowed
      exact priced.put fun _ => (refusal_none allowed.1).2.2
    · exact priced
  · exact priced

end

/-- Amounts are positive when they are created, and stay. -/
theorem Request.priced (S : Server) {c : Id} {db : Db} (priced : db.Priced c) (r : Request) :
    (r.commit S db).Priced c := by
  obtain ⟨ctx, queueUp, call⟩ := r
  rw [Request.commit, call.commit_eq]
  cases call with
  | create newId input key => exact priced.created newId input key
  | createForTenant newId input key tenantId =>
    simp only [BillingCall.rows, PaymentService.tenantCreatedRows]
    split
    · exact priced.created newId input key
    · exact priced
  | confirm now id user =>
    simp only [BillingCall.rows, PaymentService.confirmRows]
    split
    · rename_i p decided
      exact (priced.decided decided).of_payments (payments_rollup p.invoiceId)
    · exact priced
  | reject id reason =>
    simp only [BillingCall.rows, PaymentService.rejectRows]
    split
    · rename_i p decided
      exact priced.decided decided
    · exact priced
  | issue now id => exact priced.of_payments (payments_issue now id)
  | void id => exact priced.of_payments (payments_void id)

/-- A confirm adds nothing exactly when the payment is dated. -/
theorem Request.excess_iff {c : Id} {db : Db} (priced : db.Priced c) (r : Request) :
    r.excess c db = 0 ↔ r.ConfirmsDated c db := by
  obtain ⟨ctx, queueUp, call⟩ := r
  cases call with
  | confirm now id user =>
    simp only [Request.excess, Request.ConfirmsDated]
    cases decided : PaymentService.decidedRow ctx.companyId db id
        (PaymentService.confirmPatch now user) with
    | none =>
      rw [Option.elim_none]
      refine iff_of_true rfl fun company p found pending known => ?_
      have known : ∀ u ∈ (PaymentService.confirmPatch now user).confirmedByUserId,
          (db.users.find? u).isSome := by
        simpa [PaymentService.confirmPatch] using known
      rw [PaymentService.decidedRow, company, found] at decided
      simp only [if_pos (And.intro pending known)] at decided
      cases decided
    | some p =>
      obtain ⟨old, found, pending, known, rfl⟩ := PaymentService.decidedRow_some decided
      obtain ⟨stored, owner⟩ := Db.payment?_some.mp found
      have known : (db.users.find? user).isSome := by
        simpa [PaymentService.confirmPatch] using known
      rw [Option.elim_some]
      by_cases company : ctx.companyId = c
      · have positive := priced old (Table.find?_mem stored) (owner.trans company)
        have worth : Payment.excess c ((PaymentService.confirmPatch now user).apply old) =
            (old.counted - 1) * old.amount.units := if_pos ⟨owner.trans company, rfl⟩
        have once : ((old.counted : Int) - 1) * old.amount.units = 0 ↔ old.Dated := by
          rw [← Payment.counted_eq_one, mul_eq_zero]
          omega
        rw [worth, once]
        constructor
        · intro dated _ p foundP _ _
          rw [← company, found] at foundP
          exact Option.some.inj foundP ▸ dated
        · intro confirms
          exact confirms company old (company ▸ found) pending known
      · refine iff_of_true (Payment.excess_other fun h => company (owner.symm.trans h)) ?_
        exact fun same => absurd same company
  | _ => exact iff_of_true rfl trivial

/-- **Every confirmed payment is revenue of exactly one month** in every state
of a history exactly when every confirm that goes through meets a payment that
was given a date in one of the years 100 to 1899 or 2000 to 9999 or in December
1999. -/
theorem revenue_of_one_month_iff (S : Server) (c : Id) (db : Db)
    (start : ∀ p ∈ db.payments.rows, p.companyId ≠ c) (rs : List Request) :
    (∀ db' ∈ Txn.states (Request.commit S) db rs,
      ∑ period : Period, (DashboardService.revenue c db' period).confirmed =
        db'.confirmedTotal c) ↔
    Txn.Throughout (Request.commit S) (Request.ConfirmsDated c) db rs := by
  have none : db.payments.total (Payment.excess c) = 0 := by
    apply List.sum_eq_zero
    intro x hx
    obtain ⟨p, stored, rfl⟩ := List.mem_map.mp hx
    exact Payment.excess_other (start p stored)
  have step : ∀ db' (r : Request), db'.Priced c →
      (∑ period : Period, (DashboardService.revenue c db' period).confirmed =
        db'.confirmedTotal c) → True →
      ((∑ period : Period, (DashboardService.revenue c (r.commit S db') period).confirmed =
        (r.commit S db').confirmedTotal c) ↔ r.ConfirmsDated c db') := by
    intro db' r priced agrees _
    rw [DashboardService.sum_confirmed, add_eq_left] at agrees ⊢
    rw [r.excess_commit S, agrees, zero_add, r.excess_iff priced]
  refine Txn.states_iff (P := fun _ _ => True) (fun _ r priced _ => r.priced S priced) step
    (fun p stored company => absurd company (start p stored)) ?_ (Txn.throughout_true _ _ _)
  rw [DashboardService.sum_confirmed, none, add_zero]

namespace Demo

def paid (paidAt : Option Instant) : CreatePaymentInput := ⟨1, baht 1000, .cash, paidAt⟩

/-- A tenant pays invoice 1 and the admin confirms. -/
def payAndConfirm (paidAt : Option Instant) : List Request :=
  [⟨ctx, fun _ => true, .createForTenant 5 (paid paidAt) "key-of-payment-5" 11⟩,
    ⟨ctx, fun _ => true, .confirm 0 5 7⟩]

def toPay : Db := db [invoice 1 11 (baht 1000) .issued] []

end Demo

open Demo in
/-- Paid on 2026-05-01, midnight in Bangkok. -/
theorem revenue_of_one_month_may :
    (∀ db' ∈ Txn.states (Request.commit server) toPay (payAndConfirm (some 1777568400000)),
      ∑ period : Period, (DashboardService.revenue 1 db' period).confirmed =
        db'.confirmedTotal 1) ∧
    (history server toPay (payAndConfirm (some 1777568400000))).confirmedTotal 1 = 100000 := by
  refine ⟨(revenue_of_one_month_iff server 1 toPay (by decide) _).mpr
    ⟨trivial, ?_, trivial⟩, by decide⟩
  intro _ p found _ _
  have stored : p.paidAt = some 1777568400000 := by
    have := congrArg (Option.map Payment.paidAt) found
    rw [Option.map_some] at this
    exact Option.some.inj (this.symm.trans (by decide))
  exact ⟨_, stored, by decide⟩

open Demo in
/-- A payment without a date is confirmed and revenue of no month. -/
theorem undated_payment_no_revenue :
    ∃ db' ∈ Txn.states (Request.commit server) toPay (payAndConfirm none),
      ∑ period : Period, (DashboardService.revenue 1 db' period).confirmed = 0 ∧
        db'.confirmedTotal 1 = 100000 := by
  refine ⟨_, Txn.last_mem_states _ _ _, ?_, by decide⟩
  rw [DashboardService.sum_confirmed]
  decide

end Dormitory
