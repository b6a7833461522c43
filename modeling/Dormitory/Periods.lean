import Dormitory.DashboardService
import Dormitory.Digits

/-!
# Periods

`addPeriod`, `currentPeriod` and `PERIOD_REGEX` of `packages/shared/src`, on the
strings themselves. Adding months acts on the valid strings, which are in the
order of time, and every instant lies in the bounds of its own period only.
-/

namespace Dormitory

/-- `PERIOD_REGEX`, `/^\d{4}-(0[1-9]|1[0-2])$/`. -/
def periodRegex (s : String) : Bool :=
  match s.toList with
  | [y₁, y₂, y₃, y₄, '-', m₁, m₂] =>
    [y₁, y₂, y₃, y₄].all Char.isDigit ∧
      (m₁ = '0' ∧ '1' ≤ m₂ ∧ m₂ ≤ '9' ∨ m₁ = '1' ∧ '0' ≤ m₂ ∧ m₂ ≤ '2')
  | _ => false

/-- `String(n).padStart(width, '0')`. -/
def padStartInt (width : Nat) (n : Int) : String :=
  String.ofList (List.replicate (width - (toString n).length) '0') ++ toString n

/-- `period.split('-').map(Number)`, of a valid period. -/
def splitPeriod (period : String) : Int × Int :=
  let parts := (period.toList.splitOn '-').map fun part => (Nat.ofDigitChars 10 part 0 : Int)
  (parts.getD 0 0, parts.getD 1 0)

/-- `%` is the remainder of a division that rounds towards zero. -/
def addPeriod (period : String) (months : Int) : String :=
  let (y, m) := splitPeriod period
  let total := y * 12 + (m - 1) + months
  let ny := total.fdiv 12
  let nm := total.tmod 12 + 1
  padStartInt 4 ny ++ "-" ++ padStartInt 2 nm

/-- `fromBangkok` the other way round: the offset of an instant. -/
def bangkokOffsetAt (t : Instant) : Int :=
  if t < Civil.days ⟨1920, 4, 1⟩ * millisPerDay - 24124000 then 24124000 else 25200000

/-- The fields of `toZonedTime(now, TIMEZONE_BANGKOK)` on a server in UTC. -/
def toBangkok (now : Instant) : Civil :=
  Civil.ofDays ((now + bangkokOffsetAt now).fdiv millisPerDay)

def currentPeriod (now : Instant) : String :=
  padStartInt 4 (toBangkok now).year ++ "-" ++ padStartInt 2 (toBangkok now).month

/-! ## Valid periods as strings -/

theorem padStartInt_natCast (width n : Nat) : padStartInt width n = padStart width n := by
  have digits : toString (n : Int) = String.ofList (Nat.toDigits 10 n) := rfl
  rw [padStartInt, padStart, digits, String.ofList_append, String.length_ofList]

theorem padStart_eq {width n : Nat} (pos : 0 < width) (fits : n < 10 ^ width) :
    padStart width n = String.ofList (lastDigits 10 width n) := by
  rw [padStart, padded_eq (by decide) pos fits]

namespace Period

theorem toList_toString (p : Period) :
    p.toString.toList = lastDigits 10 4 p.year ++ '-' :: lastDigits 10 2 p.month := by
  have valid := p.valid
  rw [Period.toString, padStart_eq (by decide) (by omega), padStart_eq (by decide) (by omega)]
  simp

theorem toString_inj {p q : Period} (h : p.toString = q.toString) : p = q := by
  have lists := congrArg String.toList h
  rw [toList_toString, toList_toString] at lists
  obtain ⟨year, rest⟩ := List.append_inj lists (by simp)
  obtain ⟨y, m, valid⟩ := p
  obtain ⟨y', m', valid'⟩ := q
  dsimp only at year rest
  obtain rfl := lastDigits_inj (by decide) (by omega) (by omega) year
  obtain rfl := lastDigits_inj (by decide) (by omega) (by omega) (List.tail_eq_of_cons_eq rest)
  rfl

/-- **The strings are in the order of time.** -/
theorem toString_lt_iff (p q : Period) : p.toString < q.toString ↔ p.position < q.position := by
  have lists : p.toString < q.toString ↔ p.toString.toList < q.toString.toList := Iff.rfl
  have valid := p.valid
  have valid' := q.valid
  have years := lastDigits_lt_iff (k := 4) (b := 10) (by decide) (show p.year < _ by omega)
    (show q.year < _ by omega)
  have equal : lastDigits 10 4 p.year = lastDigits 10 4 q.year ↔ p.year = q.year :=
    ⟨lastDigits_inj (by decide) (by omega) (by omega), fun same => same ▸ rfl⟩
  have months := lastDigits_lt_iff (k := 2) (b := 10) (by decide) (show p.month < _ by omega)
    (show q.month < _ by omega)
  have dash : ¬ '-' < '-' := by decide
  rw [lists, toList_toString, toList_toString, append_lt_append_iff (by simp), years, equal,
    List.cons_lt_cons_iff, months, position, position]
  simp only [dash, false_or, true_and]
  omega

theorem splitPeriod_toString (p : Period) :
    splitPeriod p.toString = ((p.year : Int), (p.month : Int)) := by
  have valid := p.valid
  have noDash : ∀ part ∈ [lastDigits 10 4 p.year, lastDigits 10 2 p.month], '-' ∉ part := by
    intro part hpart dash
    have digit : ('-').isDigit = true := by
      rcases List.mem_cons.mp hpart with rfl | last
      · exact lastDigits_digits 4 p.year _ dash
      · rw [List.mem_singleton.mp last] at dash
        exact lastDigits_digits 2 p.month _ dash
    exact absurd digit (by decide)
  have parts : p.toString.toList.splitOn '-' =
      [lastDigits 10 4 p.year, lastDigits 10 2 p.month] := by
    rw [toList_toString]
    exact List.splitOn_intercalate '-' noDash (by simp)
  simp only [splitPeriod, parts]
  have year := ofDigitChars_lastDigits (k := 4) (by decide) (show p.year < _ by omega)
  have month := ofDigitChars_lastDigits (k := 2) (by decide) (show p.month < _ by omega)
  simp [year, month]

end Period

/-- The valid strings are those of the periods. -/
theorem periodRegex_iff {s : String} : periodRegex s = true ↔ ∃ p : Period, s = p.toString := by
  constructor
  · intro h
    unfold periodRegex at h
    split at h
    · rename_i y₁ y₂ y₃ y₄ m₁ m₂ text
      simp only [Bool.decide_and, Bool.and_eq_true, decide_eq_true_eq, List.all_eq_true] at h
      obtain ⟨years, month⟩ := h
      have zero : '0'.toNat = 48 := rfl
      have one : '1'.toNat = 49 := rfl
      have digit : ∀ c : Char, 48 ≤ c.toNat → c.toNat ≤ 57 → c.isDigit = true := by
        intro c low high
        simp only [Char.isDigit, Bool.and_eq_true, decide_eq_true_eq]
        exact ⟨low, high⟩
      have digits : ∀ c ∈ [m₁, m₂], c.isDigit = true := by
        simp only [List.forall_mem_cons, List.not_mem_nil, false_imp_iff, implies_true, and_true]
        rcases month with ⟨rfl, low, high⟩ | ⟨rfl, low, high⟩
        · have low : 49 ≤ m₂.toNat := low
          exact ⟨rfl, digit m₂ (by omega) high⟩
        · have high : m₂.toNat ≤ 50 := high
          exact ⟨rfl, digit m₂ low (by omega)⟩
      have range : 1 ≤ Nat.ofDigitChars 10 [m₁, m₂] 0 ∧ Nat.ofDigitChars 10 [m₁, m₂] 0 ≤ 12 := by
        simp only [Nat.ofDigitChars_cons, Nat.ofDigitChars_nil, zero]
        rcases month with ⟨rfl, low, high⟩ | ⟨rfl, low, high⟩
        · have low : 49 ≤ m₂.toNat := low
          have high : m₂.toNat ≤ 57 := high
          omega
        · have low : 48 ≤ m₂.toNat := low
          have high : m₂.toNat ≤ 50 := high
          omega
      refine ⟨⟨Nat.ofDigitChars 10 [y₁, y₂, y₃, y₄] 0, Nat.ofDigitChars 10 [m₁, m₂] 0, ?_, range⟩,
        ?_⟩
      · have := ofDigitChars_lt (List.all_eq_true.mpr years) 0
        simpa using this
      · rw [← String.toList_inj, Period.toList_toString, text]
        have year := lastDigits_ofDigitChars years
        have month := lastDigits_ofDigitChars digits
        simp only [List.length_cons, List.length_nil] at year month
        rw [year, month]
        rfl
    · cases h
  · rintro ⟨⟨year, month, fits, low, high⟩, rfl⟩
    have text := Period.toList_toString ⟨year, month, fits, low, high⟩
    have digits := lastDigits_digits 4 year
    simp only [lastDigits, List.nil_append, List.cons_append] at text digits
    have years := List.all_eq_true.mpr digits
    rw [periodRegex, text]
    simp only [years, true_and, decide_eq_true_eq]
    interval_cases month <;> decide

/-! ## Adding months -/

/-- The year that `addPeriod` computes is one of 0000 to 9999. -/
def StaysWithin (period : String) (months : Int) : Prop :=
  let (y, m) := splitPeriod period
  0 ≤ (y * 12 + (m - 1) + months).fdiv 12 ∧ (y * 12 + (m - 1) + months).fdiv 12 ≤ 9999

instance (period : String) (months : Int) : Decidable (StaysWithin period months) :=
  inferInstanceAs (Decidable (_ ∧ _))

namespace Period

theorem total_eq (p : Period) (a : Int) :
    (p.year : Int) * 12 + ((p.month : Int) - 1) + a = p.position + a := by
  have := p.valid
  unfold position
  omega

theorem staysWithin_iff (p : Period) (a : Int) :
    StaysWithin p.toString a ↔ 0 ≤ p.position + a ∧ p.position + a < 120000 := by
  simp only [StaysWithin, splitPeriod_toString, total_eq, Int.fdiv_eq_ediv_of_nonneg _
    (show (0 : Int) ≤ 12 by decide)]
  omega

/-- The months since January of the year 0 are what is added to. -/
theorem addPeriod_eq (p : Period) {a : Int} {k : Nat} (sum : p.position + a = k) :
    addPeriod p.toString a = padStart 4 (k / 12) ++ "-" ++ padStart 2 (k % 12 + 1) := by
  have year : (k : Int).fdiv 12 = (k / 12 : Nat) := by
    rw [Int.fdiv_eq_ediv_of_nonneg _ (by decide), Int.natCast_ediv]
    rfl
  have month : (k : Int).tmod 12 + 1 = (k % 12 + 1 : Nat) := rfl
  simp only [addPeriod, splitPeriod_toString, total_eq, sum, year, month, padStartInt_natCast]

theorem addPeriod_ofPosition (p : Period) {a : Int} {k : Fin 120000}
    (sum : p.position + a = (k : Nat)) : addPeriod p.toString a = (ofPosition k).toString :=
  p.addPeriod_eq sum

/-- A year of five digits is no valid one. -/
theorem of_addPeriod (p q : Period) {a : Int} (pos : 0 < a)
    (same : q.toString = addPeriod p.toString a) : (q.position : Int) = p.position + a := by
  obtain ⟨k, sum⟩ := Int.eq_ofNat_of_zero_le (show 0 ≤ p.position + a by omega)
  by_cases small : k < 120000
  · rw [addPeriod_ofPosition (k := ⟨k, small⟩) p sum] at same
    rw [toString_inj same, position_ofPosition, sum]
  · have long : 4 < (Nat.toDigits 10 (k / 12)).length := by
      rw [← Nat.not_le, Nat.length_toDigits_le_iff (by decide) (by decide)]
      omega
    have length := congrArg String.length same
    rw [addPeriod_eq p sum, ← String.length_toList, toList_toString] at length
    have dash : "-".length = 1 := rfl
    simp [padStart, dash] at length
    omega

end Period

/-- **Months act on the valid periods**, which are in the order of their strings: that is
the order in which the reading before a period is looked up. -/
theorem period_arithmetic (p q : String) (hp : periodRegex p = true) (hq : periodRegex q = true) :
    (∀ a, StaysWithin p a → periodRegex (addPeriod p a) = true) ∧
    addPeriod p 0 = p ∧
    (∀ a b, StaysWithin p a → StaysWithin p (a + b) →
      addPeriod (addPeriod p a) b = addPeriod p (a + b)) ∧
    (p < q ↔ ∃ n > 0, q = addPeriod p n) := by
  obtain ⟨p, rfl⟩ := periodRegex_iff.mp hp
  obtain ⟨q, rfl⟩ := periodRegex_iff.mp hq
  have results : ∀ a, StaysWithin p.toString a →
      ∃ k : Fin 120000, p.position + a = (k : Nat) ∧
        addPeriod p.toString a = (Period.ofPosition k).toString := by
    intro a within
    obtain ⟨low, high⟩ := (p.staysWithin_iff a).mp within
    obtain ⟨k, sum⟩ := Int.eq_ofNat_of_zero_le low
    exact ⟨⟨k, by omega⟩, sum, p.addPeriod_ofPosition sum⟩
  refine ⟨fun a within => ?_, ?_, fun a b first both => ?_, ?_⟩
  · obtain ⟨k, -, result⟩ := results a within
    exact periodRegex_iff.mpr ⟨_, result⟩
  · have zero : (p.position : Int) + 0 = ((Period.equivPosition p : Fin 120000) : Nat) :=
      Int.add_zero _
    rw [p.addPeriod_ofPosition zero]
    exact congrArg Period.toString (Period.equivPosition.left_inv p)
  · obtain ⟨k, sum, result⟩ := results a first
    obtain ⟨l, sum', result'⟩ := results (a + b) both
    rw [result, result']
    apply Period.addPeriod_ofPosition
    rw [Period.position_ofPosition]
    omega
  · rw [Period.toString_lt_iff]
    constructor
    · intro later
      have sum : p.position + ((q.position : Int) - p.position) =
          ((Period.equivPosition q : Fin 120000) : Nat) := add_sub_cancel _ _
      refine ⟨(q.position : Int) - p.position, by omega, ?_⟩
      rw [p.addPeriod_ofPosition sum]
      exact (congrArg Period.toString (Period.equivPosition.left_inv q)).symm
    · rintro ⟨n, pos, same⟩
      have := p.of_addPeriod q pos same
      omega

theorem period_arithmetic_april :
    periodRegex (addPeriod "2026-01" (-1)) = true ∧
      addPeriod (addPeriod "2026-01" (-1)) 4 = addPeriod "2026-01" 3 ∧
      ("2026-01" < "2026-04" ↔ ∃ n > 0, "2026-04" = addPeriod "2026-01" n) := by
  obtain ⟨matches', -, acts, order⟩ := period_arithmetic "2026-01" "2026-04" (by decide) (by decide)
  exact ⟨matches' (-1) (by decide), acts (-1) 4 (by decide) (by decide), order⟩

/-! ## The bounds of the periods -/

/-- The first day of the `j`-th month since January of the year 0. -/
def monthDays (j : Int) : Int := Civil.days ⟨j / 12, (j % 12).toNat + 1, 1⟩

theorem monthDays_lt_iff {i j : Int} : monthDays i < monthDays j ↔ i < j := by
  have ascending : StrictMono monthDays := by
    apply strictMono_int_of_lt_succ
    intro j
    unfold monthDays
    by_cases december : j % 12 = 11
    · rw [show (j + 1) / 12 = j / 12 + 1 by omega, show (j + 1) % 12 = 0 by omega, december]
      have := Civil.days_december (j / 12)
      simp at *
      omega
    · rw [show (j + 1) / 12 = j / 12 by omega,
        show ((j + 1) % 12).toNat + 1 = (j % 12).toNat + 1 + 1 by omega]
      have := Civil.days_month (j / 12) (show 1 ≤ (j % 12).toNat + 1 by omega) (by omega)
      omega
  exact ascending.lt_iff_lt

theorem monthDays_le_iff {i j : Int} : monthDays i ≤ monthDays j ↔ i ≤ j := by
  rw [← not_lt, monthDays_lt_iff, not_lt]

/-- The month of a day, counted from January of the year 0. -/
theorem monthDays_ofDays (n : Int) {c : Civil} (h : Civil.ofDays n = c) :
    monthDays (c.year * 12 + (c.month - 1)) ≤ n ∧
      n < monthDays (c.year * 12 + (c.month - 1) + 1) := by
  have range := Civil.ofDays_range n
  have within := Civil.ofDays_month n
  rw [h] at range within
  obtain ⟨low, high, -⟩ := range
  have year : (c.year * 12 + ((c.month : Int) - 1)) / 12 = c.year := by omega
  have month : ((c.year * 12 + ((c.month : Int) - 1)) % 12).toNat + 1 = c.month := by omega
  constructor
  · rw [monthDays, year, month]
    exact within.1
  · rw [monthDays]
    have stop := within.2
    split at stop
    · rw [show (c.year * 12 + ((c.month : Int) - 1) + 1) / 12 = c.year + 1 by omega,
        show ((c.year * 12 + ((c.month : Int) - 1) + 1) % 12).toNat + 1 = 1 by omega]
      exact stop
    · rw [show (c.year * 12 + ((c.month : Int) - 1) + 1) / 12 = c.year by omega,
        show ((c.year * 12 + ((c.month : Int) - 1) + 1) % 12).toNat + 1 = c.month + 1 by omega]
      exact stop

/-- From 1970 on, Bangkok is seven hours ahead. -/
theorem monthStart_eq {k : Nat} (late : 23640 ≤ k) :
    monthStart k = monthDays k * millisPerDay - 25200000 := by
  have first : monthDays 23640 = 0 := rfl
  have after : monthDays 23640 ≤ monthDays k := monthDays_le_iff.mpr (by omega)
  have year : ¬ k / 12 < 100 := by omega
  have days : Civil.days ⟨(k / 12 : Nat), k % 12 + 1, 1⟩ = monthDays k := rfl
  have offset : ¬ monthDays k < Civil.days ⟨1920, 4, 1⟩ := by
    have : Civil.days ⟨1920, 4, 1⟩ < 0 := by decide
    omega
  simp only [monthStart, fromBangkok, bangkokOffset, year, if_false, days, offset]

/-- The first instant of 1970 in Bangkok. -/
def epochInBangkok : Instant := -25200000

theorem toBangkok_eq {t : Instant} (late : epochInBangkok ≤ t) :
    toBangkok t = Civil.ofDays ((t + 25200000).fdiv millisPerDay) := by
  have offset : ¬ t < Civil.days ⟨1920, 4, 1⟩ * millisPerDay - 24124000 := by
    have : Civil.days ⟨1920, 4, 1⟩ * millisPerDay - 24124000 < epochInBangkok := by decide
    exact not_lt.mpr (this.le.trans late)
  rw [toBangkok, bangkokOffsetAt, if_neg offset]

/-- The current period has the instant. -/
theorem currentPeriod_has {t : Instant} (late : epochInBangkok ≤ t)
    (early : t < Civil.days ⟨9999, 1, 1⟩ * millisPerDay) :
    ∃ p : Period, currentPeriod t = p.toString ∧ p.Has t := by
  obtain ⟨c, date⟩ : ∃ c, Civil.ofDays ((t + 25200000).fdiv millisPerDay) = c := ⟨_, rfl⟩
  obtain ⟨j, position⟩ : ∃ j, j = c.year * 12 + ((c.month : Int) - 1) := ⟨_, rfl⟩
  have day := Int.fdiv_eq_ediv_of_nonneg (t + 25200000) (show (0 : Int) ≤ millisPerDay by decide)
  have range := Civil.ofDays_range ((t + 25200000).fdiv millisPerDay)
  have within := monthDays_ofDays _ date
  rw [← position, day] at within
  rw [date] at range
  have now : epochInBangkok ≤ t ∧ t < Civil.days ⟨9999, 1, 1⟩ * millisPerDay := ⟨late, early⟩
  have last : Civil.days ⟨9999, 1, 1⟩ = monthDays 119988 := rfl
  rw [last] at now
  unfold epochInBangkok millisPerDay at now
  unfold millisPerDay at within
  have low : 23640 ≤ j := by
    have first : monthDays 23640 = 0 := rfl
    have : monthDays 23640 < monthDays (j + 1) := by
      change (_ : Int) ≤ (_ : Int) ∧ (_ : Int) < (_ : Int) at now
      omega
    have := monthDays_lt_iff.mp this
    omega
  have high : j < 119989 := by
    have next : monthDays 119988 + 28 ≤ monthDays 119989 :=
      Civil.days_month 9999 (by decide) (by decide)
    have : monthDays j < monthDays 119989 := by
      change (_ : Int) ≤ (_ : Int) ∧ (_ : Int) < (_ : Int) at now
      omega
    exact monthDays_lt_iff.mp this
  obtain ⟨k, rfl⟩ := Int.eq_ofNat_of_zero_le (show 0 ≤ j by omega)
  refine ⟨Period.ofPosition ⟨k, by omega⟩, ?_, ?_⟩
  · have year : c.year = (k / 12 : Nat) := by omega
    have month : c.month = k % 12 + 1 := by omega
    rw [currentPeriod, toBangkok_eq late, date, year, month, padStartInt_natCast,
      padStartInt_natCast]
    rfl
  · rw [Period.has_iff, Period.position_ofPosition]
    dsimp only
    rw [monthStart_eq (by omega), monthStart_eq (by omega)]
    unfold millisPerDay
    change (_ : Int) ≤ (_ : Int) ∧ (_ : Int) < (_ : Int)
    push_cast
    omega

/-- **Periods tile time**: every instant lies in the bounds of its current period, a period
ends where the next one starts, and the bounds of two periods have no instant in common. A
year below 100 is one of the twentieth century to `Date`. -/
theorem periods_tile :
    (∀ t : Instant, epochInBangkok ≤ t → t < Civil.days ⟨9999, 1, 1⟩ * millisPerDay →
      ∃ p : Period, currentPeriod t = p.toString ∧ p.Has t) ∧
    (∀ p : Period, p.year ≤ 9998 →
      ∃ q : Period, addPeriod p.toString 1 = q.toString ∧ periodEndUtc p = periodStartUtc q) ∧
    (∀ (t : Instant) (p q : Period), 100 ≤ p.year → 100 ≤ q.year → p.Has t → q.Has t → p = q) := by
  refine ⟨fun t late early => currentPeriod_has late early, fun p inRange => ?_,
    fun t p q hp hq has has' => ?_⟩
  · have valid := p.valid
    have next : p.position + 1 < 120000 := by
      unfold Period.position
      omega
    refine ⟨Period.ofPosition ⟨p.position + 1, next⟩, p.addPeriod_ofPosition rfl, ?_⟩
    rw [periodEndUtc_eq, periodStartUtc_eq, Period.position_ofPosition]
  · have early : 1200 ≤ p.position ∧ 1200 ≤ q.position := by
      unfold Period.position
      omega
    rw [Period.has_iff] at has has'
    exact Period.position_inj (month_unique early.1 early.2 has has')

/-- The last second of January 2024 in Bangkok. -/
theorem periods_tile_january :
    (∃ p : Period, currentPeriod 1706720399000 = p.toString ∧ p.Has 1706720399000) ∧
    (∃ q : Period, addPeriod (Period.toString ⟨2024, 1, by decide⟩) 1 = q.toString ∧
      periodEndUtc ⟨2024, 1, by decide⟩ = periodStartUtc q) ∧
    (⟨2024, 1, by decide⟩ : Period) = Period.ofPosition ⟨24288, by decide⟩ := by
  obtain ⟨has, next, unique⟩ := periods_tile
  exact ⟨has 1706720399000 (by decide) (by decide), next ⟨2024, 1, by decide⟩ (by decide),
    unique 1706720399000 _ _ (by decide) (by decide) (by decide) (by decide)⟩

end Dormitory
