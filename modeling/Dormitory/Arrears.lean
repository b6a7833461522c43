import Dormitory.Date
import Dormitory.Exact

/-!
# Arrears

`bucketArrearsByAging` of `modules/dashboard/dashboard.service.ts`: the overdue
invoices of a company by the number of whole days since they were due. The
buckets partition the invoices that are a day overdue, and their counts and
amounts are exact.
-/

namespace Dormitory

structure OverdueInvoiceLike where
  dueDate : Instant
  total : Numeric 10 2

structure ArrearsBucket where
  count : Nat
  amount : Int
  deriving DecidableEq, Repr

structure DashboardArrears where
  bucket1to30 : ArrearsBucket
  bucket31to60 : ArrearsBucket
  bucket60plus : ArrearsBucket
  total : ArrearsBucket
  deriving DecidableEq, Repr

namespace DashboardService

/-- One bucket of the loop. -/
structure BucketAcc where
  ids : Nat
  amounts : List (Numeric 10 2)

def BucketAcc.push (b : BucketAcc) (total : Numeric 10 2) : BucketAcc :=
  ⟨b.ids + 1, b.amounts ++ [total]⟩

/-- The `acc` of the loop. -/
structure ArrearsAcc where
  bucket1to30 : BucketAcc
  bucket31to60 : BucketAcc
  bucket60plus : BucketAcc

/-- `Math.floor((now - dueDate) / DAY_MS)`. A quotient that `/` itself rounds up
is far beyond sixty, or below zero. -/
def overdueDays (now : Instant) (inv : OverdueInvoiceLike) : Int :=
  (now - inv.dueDate).fdiv millisPerDay

/-- One round of the loop. -/
def ArrearsAcc.step (now : Instant) (acc : ArrearsAcc) (inv : OverdueInvoiceLike) : ArrearsAcc :=
  let days := overdueDays now inv
  if days < 1 then acc
  else if days ≤ 30 then { acc with bucket1to30 := acc.bucket1to30.push inv.total }
  else if days ≤ 60 then { acc with bucket31to60 := acc.bucket31to60.push inv.total }
  else { acc with bucket60plus := acc.bucket60plus.push inv.total }

def BucketAcc.bucket (b : BucketAcc) : ArrearsBucket :=
  ⟨b.ids, toStorage (moneySum (b.amounts.map Numeric.toDecimal))⟩

def bucketArrearsByAging (invoices : List OverdueInvoiceLike) (now : Instant) : DashboardArrears :=
  let acc := invoices.foldl (ArrearsAcc.step now) ⟨⟨0, []⟩, ⟨0, []⟩, ⟨0, []⟩⟩
  { bucket1to30 := acc.bucket1to30.bucket
    bucket31to60 := acc.bucket31to60.bucket
    bucket60plus := acc.bucket60plus.bucket
    total :=
      { count := acc.bucket1to30.ids + acc.bucket31to60.ids + acc.bucket60plus.ids
        amount := toStorage (moneySum ((acc.bucket1to30.amounts ++ acc.bucket31to60.amounts ++
          acc.bucket60plus.amounts).map Numeric.toDecimal)) } }

end DashboardService

/-! ## The partition -/

/-- The three windows. -/
inductive Aging
  | from1to30
  | from31to60
  | over60
  deriving DecidableEq, Repr

/-- The whole days that a window wants. -/
def Aging.Wants : Aging → Int → Prop
  | from1to30, days => 1 ≤ days ∧ days ≤ 30
  | from31to60, days => 31 ≤ days ∧ days ≤ 60
  | over60, days => 60 < days

instance (w : Aging) (days : Int) : Decidable (w.Wants days) :=
  match w with
  | .from1to30 => inferInstanceAs (Decidable (_ ∧ _))
  | .from31to60 => inferInstanceAs (Decidable (_ ∧ _))
  | .over60 => inferInstanceAs (Decidable (_ < _))

def DashboardArrears.bucket (report : DashboardArrears) : Aging → ArrearsBucket
  | .from1to30 => report.bucket1to30
  | .from31to60 => report.bucket31to60
  | .over60 => report.bucket60plus

namespace DashboardService

/-- The invoices that a window wants. -/
def wanted (w : Aging) (now : Instant) (invoices : List OverdueInvoiceLike) :
    List OverdueInvoiceLike :=
  invoices.filter fun inv => w.Wants (overdueDays now inv)

/-- The satang of the invoices, in their order. -/
def amounts (invoices : List OverdueInvoiceLike) : List Int :=
  invoices.map fun inv => inv.total.units

/-- The invoices in the order in which the total adds them up. -/
def summed (now : Instant) (invoices : List OverdueInvoiceLike) : List OverdueInvoiceLike :=
  wanted .from1to30 now invoices ++ wanted .from31to60 now invoices ++ wanted .over60 now invoices

/-- All running sums of the report are below `10 ^ 18` baht. -/
def InRange (now : Instant) (invoices : List OverdueInvoiceLike) : Prop :=
  (∀ w, Running (amounts (wanted w now invoices))) ∧ Running (amounts (summed now invoices))

/-- At least one whole day has passed since the invoice was due. -/
def DayOverdue (now : Instant) (inv : OverdueInvoiceLike) : Prop :=
  inv.dueDate + millisPerDay ≤ now

theorem dayOverdue_iff {now : Instant} {inv : OverdueInvoiceLike} :
    DayOverdue now inv ↔ 1 ≤ overdueDays now inv := by
  rw [DayOverdue, overdueDays, Int.fdiv_eq_ediv_of_nonneg _ (by decide)]
  unfold millisPerDay
  change (_ : Int) ≤ (_ : Int) ↔ _
  omega

/-- Exactly one window wants an invoice that is a day overdue, and none another. -/
theorem existsUnique_wants {days : Int} : (∃! w : Aging, w.Wants days) ↔ 1 ≤ days := by
  constructor
  · rintro ⟨w, wants, -⟩
    cases w <;> simp only [Aging.Wants] at wants <;> omega
  · intro overdue
    have one (w : Aging) (wants : w.Wants days) : ∃! w : Aging, w.Wants days := by
      refine ⟨w, wants, fun v wants' => ?_⟩
      cases w <;> cases v <;> first | rfl | (simp only [Aging.Wants] at wants wants'; omega)
    rcases (show days ≤ 30 ∨ 31 ≤ days ∧ days ≤ 60 ∨ 60 < days by omega) with h | h | h
    · exact one .from1to30 ⟨overdue, h⟩
    · exact one .from31to60 h
    · exact one .over60 h

/-! ## The loop -/

def ArrearsAcc.bucket (acc : ArrearsAcc) : Aging → BucketAcc
  | .from1to30 => acc.bucket1to30
  | .from31to60 => acc.bucket31to60
  | .over60 => acc.bucket60plus

/-- A round adds the invoice to the bucket that wants it. -/
theorem ArrearsAcc.step_bucket (now : Instant) (acc : ArrearsAcc) (inv : OverdueInvoiceLike)
    (w : Aging) : (acc.step now inv).bucket w =
      if w.Wants (overdueDays now inv) then (acc.bucket w).push inv.total else acc.bucket w := by
  unfold step
  generalize overdueDays now inv = days
  dsimp only
  -- The guards of the branches leave one window.
  by_cases none : days < 1
  · have unwanted : ¬ w.Wants days := by
      cases w <;> simp only [Aging.Wants] <;> omega
    rw [if_pos none, if_neg unwanted]
  · rw [if_neg none]
    by_cases first : days ≤ 30
    · rw [if_pos first]
      cases w with
      | from1to30 => exact (if_pos ⟨by omega, first⟩).symm
      | from31to60 => exact (if_neg fun wants => by have := wants.1; omega).symm
      | over60 => exact (if_neg fun wants : 60 < days => by omega).symm
    · rw [if_neg first]
      by_cases second : days ≤ 60
      · rw [if_pos second]
        cases w with
        | from1to30 => exact (if_neg fun wants => first wants.2).symm
        | from31to60 => exact (if_pos ⟨by omega, second⟩).symm
        | over60 => exact (if_neg fun wants : 60 < days => by omega).symm
      · rw [if_neg second]
        cases w with
        | from1to30 => exact (if_neg fun wants => first wants.2).symm
        | from31to60 => exact (if_neg fun wants => second wants.2).symm
        | over60 => exact (if_pos (show 60 < days by omega)).symm

theorem ArrearsAcc.foldl_bucket (now : Instant) (w : Aging) (invoices : List OverdueInvoiceLike)
    (acc : ArrearsAcc) : (invoices.foldl (step now) acc).bucket w =
      ⟨(acc.bucket w).ids + (wanted w now invoices).length,
        (acc.bucket w).amounts ++ (wanted w now invoices).map OverdueInvoiceLike.total⟩ := by
  induction invoices generalizing acc with
  | nil => simp [wanted]
  | cons inv rest ih =>
    rw [List.foldl_cons, ih, step_bucket]
    by_cases wants : w.Wants (overdueDays now inv)
    · simp [wanted, wants, BucketAcc.push, Nat.add_assoc, Nat.add_left_comm, Nat.add_comm]
    · simp [wanted, wants]

/-- The figures of a list of invoices, exactly. -/
def figures (invoices : List OverdueInvoiceLike) : ArrearsBucket :=
  ⟨invoices.length, (amounts invoices).sum⟩

theorem toStorage_moneySum {invoices : List OverdueInvoiceLike}
    (running : Running (amounts invoices)) :
    toStorage (moneySum ((invoices.map OverdueInvoiceLike.total).map Numeric.toDecimal)) =
      (amounts invoices).sum := by
  rw [← moneySum_running running, amounts, List.map_map, List.map_map]
  rfl

theorem bucket_eq {invoices : List OverdueInvoiceLike} {now : Instant}
    (inRange : InRange now invoices) (w : Aging) :
    (bucketArrearsByAging invoices now).bucket w = figures (wanted w now invoices) := by
  have loop := ArrearsAcc.foldl_bucket now w invoices ⟨⟨0, []⟩, ⟨0, []⟩, ⟨0, []⟩⟩
  have empty : ArrearsAcc.bucket ⟨⟨0, []⟩, ⟨0, []⟩, ⟨0, []⟩⟩ w = ⟨0, []⟩ := by cases w <;> rfl
  have read : (bucketArrearsByAging invoices now).bucket w =
      ((invoices.foldl (ArrearsAcc.step now) ⟨⟨0, []⟩, ⟨0, []⟩, ⟨0, []⟩⟩).bucket w).bucket := by
    cases w <;> rfl
  rw [read, loop, empty, BucketAcc.bucket, figures, List.nil_append,
    toStorage_moneySum (inRange.1 w), Nat.zero_add]

theorem total_count (invoices : List OverdueInvoiceLike) (now : Instant) :
    (bucketArrearsByAging invoices now).total.count = (summed now invoices).length := by
  have loop w := ArrearsAcc.foldl_bucket now w invoices ⟨⟨0, []⟩, ⟨0, []⟩, ⟨0, []⟩⟩
  have first := congrArg BucketAcc.ids (loop .from1to30)
  have second := congrArg BucketAcc.ids (loop .from31to60)
  have third := congrArg BucketAcc.ids (loop .over60)
  simp only [ArrearsAcc.bucket, Nat.zero_add] at first second third
  simp only [bucketArrearsByAging, first, second, third, summed, List.length_append]

theorem total_eq {invoices : List OverdueInvoiceLike} {now : Instant}
    (inRange : InRange now invoices) :
    (bucketArrearsByAging invoices now).total = figures (summed now invoices) := by
  have loop w := ArrearsAcc.foldl_bucket now w invoices ⟨⟨0, []⟩, ⟨0, []⟩, ⟨0, []⟩⟩
  have first := congrArg BucketAcc.amounts (loop .from1to30)
  have second := congrArg BucketAcc.amounts (loop .from31to60)
  have third := congrArg BucketAcc.amounts (loop .over60)
  simp only [ArrearsAcc.bucket, List.nil_append] at first second third
  have amount : (bucketArrearsByAging invoices now).total.amount =
      toStorage (moneySum (((summed now invoices).map OverdueInvoiceLike.total).map
        Numeric.toDecimal)) := by
    simp only [bucketArrearsByAging, first, second, third, summed, List.map_append]
  rw [toStorage_moneySum inRange.2] at amount
  have count := total_count invoices now
  exact congrArg₂ ArrearsBucket.mk count amount

/-! ## Order and time -/

theorem figures_append (xs ys : List OverdueInvoiceLike) :
    figures (xs ++ ys) =
      ⟨(figures xs).count + (figures ys).count, (figures xs).amount + (figures ys).amount⟩ := by
  simp [figures, amounts]

theorem figures_perm {xs ys : List OverdueInvoiceLike} (perm : xs.Perm ys) :
    figures xs = figures ys := by
  have sum : (amounts xs).sum = (amounts ys).sum := (perm.map _).sum_eq
  rw [figures, figures, perm.length_eq, sum]

/-- The windows together want the invoices that are a day overdue. -/
theorem length_summed (now : Instant) (invoices : List OverdueInvoiceLike) :
    (summed now invoices).length = (invoices.filter fun inv => 1 ≤ overdueDays now inv).length := by
  induction invoices with
  | nil => rfl
  | cons inv rest ih =>
    simp only [summed, wanted, List.length_append] at ih ⊢
    by_cases overdue : 1 ≤ overdueDays now inv
    · obtain ⟨w, wants, only⟩ := existsUnique_wants.mpr overdue
      have others (v : Aging) : v.Wants (overdueDays now inv) ↔ v = w :=
        ⟨fun wants' => only v wants', fun same => same ▸ wants⟩
      cases w <;> simp [others, overdue] <;> omega
    · have unwanted (v : Aging) : ¬ v.Wants (overdueDays now inv) := by
        cases v <;> simp only [Aging.Wants] <;> omega
      simp [unwanted, overdue, ih]

theorem overdueDays_le {now later : Instant} (after : now ≤ later) (inv : OverdueInvoiceLike) :
    overdueDays now inv ≤ overdueDays later inv := by
  have after : (now : Int) ≤ later := after
  have pos : (0 : Int) ≤ millisPerDay := by decide
  rw [overdueDays, overdueDays, Int.fdiv_eq_ediv_of_nonneg _ pos, Int.fdiv_eq_ediv_of_nonneg _ pos]
  exact Int.ediv_le_ediv (by decide) (Int.sub_le_sub_right after _)

theorem length_wanted_le (w : Aging) (now : Instant) (invoices : List OverdueInvoiceLike) :
    (wanted w now invoices).length ≤ invoices.length :=
  List.length_filter_le _ _

/-- An array of invoices is always in range. -/
theorem InRange.of_length {invoices : List OverdueInvoiceLike} (now : Instant)
    (len : invoices.length < 2 ^ 32) : InRange now invoices := by
  have bound (xs : List OverdueInvoiceLike) : ∀ a ∈ amounts xs, a.natAbs < 10 ^ 10 := by
    intro a mem
    obtain ⟨inv, -, rfl⟩ := List.mem_map.mp mem
    exact inv.total.fits
  constructor
  · intro w
    have := length_wanted_le w now invoices
    exact .of_bound (bound _) (by rw [amounts, List.length_map]; omega)
  · have some := length_summed now invoices
    have le := List.length_filter_le (fun inv => decide (1 ≤ overdueDays now inv)) invoices
    exact .of_bound (bound _) (by rw [amounts, List.length_map]; omega)

theorem total_perm {invoices reordered : List OverdueInvoiceLike} {now : Instant}
    (perm : invoices.Perm reordered) (inRange : InRange now invoices)
    (inRange' : InRange now reordered) :
    bucketArrearsByAging reordered now = bucketArrearsByAging invoices now := by
  have windows (w : Aging) : (wanted w now reordered).Perm (wanted w now invoices) :=
    (perm.filter _).symm
  have same (w : Aging) : (bucketArrearsByAging reordered now).bucket w =
      (bucketArrearsByAging invoices now).bucket w := by
    rw [bucket_eq inRange, bucket_eq inRange', figures_perm (windows w)]
  have total : (bucketArrearsByAging reordered now).total =
      (bucketArrearsByAging invoices now).total := by
    rw [total_eq inRange, total_eq inRange']
    exact figures_perm (((windows _).append (windows _)).append (windows _))
  have first := same .from1to30
  have second := same .from31to60
  have third := same .over60
  generalize bucketArrearsByAging reordered now = report' at *
  generalize bucketArrearsByAging invoices now = report at *
  obtain ⟨b₁, b₂, b₃, t⟩ := report
  obtain ⟨b₁', b₂', b₃', t'⟩ := report'
  simp only [DashboardArrears.bucket] at first second third total
  rw [first, second, third, total]

/-- **Arrears bucketing is a partition**: every invoice that is a whole day overdue is in the
window of its floored day count and in no other, the rest in none; a bucket has their number
and exact sum, and the total those of the buckets; the order does not matter, and no invoice
leaves the report as time goes by. -/
theorem bucketArrearsByAging_partition (invoices : List OverdueInvoiceLike) (now : Instant)
    (inRange : InRange now invoices) :
    (∀ w, (bucketArrearsByAging invoices now).bucket w =
      figures (invoices.filter fun inv => w.Wants (overdueDays now inv))) ∧
    (∀ inv, (DayOverdue now inv → ∃! w : Aging, w.Wants (overdueDays now inv)) ∧
      (¬ DayOverdue now inv → ∀ w : Aging, ¬ w.Wants (overdueDays now inv))) ∧
    (bucketArrearsByAging invoices now).total =
      { count := (bucketArrearsByAging invoices now).bucket1to30.count +
          (bucketArrearsByAging invoices now).bucket31to60.count +
          (bucketArrearsByAging invoices now).bucket60plus.count
        amount := (bucketArrearsByAging invoices now).bucket1to30.amount +
          (bucketArrearsByAging invoices now).bucket31to60.amount +
          (bucketArrearsByAging invoices now).bucket60plus.amount } ∧
    (∀ reordered, invoices.Perm reordered → InRange now reordered →
      bucketArrearsByAging reordered now = bucketArrearsByAging invoices now) ∧
    ∀ later, now ≤ later → (bucketArrearsByAging invoices now).total.count ≤
      (bucketArrearsByAging invoices later).total.count := by
  refine ⟨bucket_eq inRange, fun inv => ⟨fun overdue => ?_, fun early w wants => ?_⟩, ?_,
    fun reordered perm inRange' => total_perm perm inRange inRange', fun later after => ?_⟩
  · exact existsUnique_wants.mpr (dayOverdue_iff.mp overdue)
  · rw [dayOverdue_iff] at early
    cases w <;> simp only [Aging.Wants] at wants <;> omega
  · have first := bucket_eq inRange .from1to30
    have second := bucket_eq inRange .from31to60
    have third := bucket_eq inRange .over60
    simp only [DashboardArrears.bucket] at first second third
    rw [total_eq inRange, first, second, third, summed, figures_append, figures_append]
  · rw [total_count, total_count, length_summed, length_summed]
    apply List.Sublist.length_le
    apply List.monotone_filter_right
    intro inv overdue
    have overdue : 1 ≤ overdueDays now inv := by simpa using overdue
    have := overdueDays_le after inv
    simpa using overdue.trans this

/-- One millisecond short of thirty-one days, and sixty-one days. -/
def twoOverdue : List OverdueInvoiceLike :=
  [⟨0, ⟨10000, by decide⟩⟩, ⟨-2592000001, ⟨250, by decide⟩⟩]

theorem bucketArrearsByAging_partition_two :
    (bucketArrearsByAging twoOverdue 2678399999).bucket .from1to30 = ⟨1, 10000⟩ ∧
    (bucketArrearsByAging twoOverdue 2678399999).bucket .over60 = ⟨1, 250⟩ ∧
    (∃! w : Aging, w.Wants (overdueDays 2678399999 ⟨0, ⟨10000, by decide⟩⟩)) ∧
    bucketArrearsByAging twoOverdue.reverse 2678399999 =
      bucketArrearsByAging twoOverdue 2678399999 ∧
    (bucketArrearsByAging twoOverdue 2678399999).total.count ≤
      (bucketArrearsByAging twoOverdue 2678400000).total.count := by
  obtain ⟨buckets, once, -, order, later⟩ := bucketArrearsByAging_partition twoOverdue 2678399999
    (.of_length _ (by decide))
  refine ⟨(buckets .from1to30).trans (by decide), (buckets .over60).trans (by decide), ?_, ?_, ?_⟩
  · exact (once ⟨0, ⟨10000, by decide⟩⟩).1 (by unfold DayOverdue; decide)
  · exact order _ (List.reverse_perm _).symm (.of_length _ (by decide))
  · exact later _ (by decide)

end DashboardService
end Dormitory
