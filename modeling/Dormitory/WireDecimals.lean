import Dormitory.Exact
import Dormitory.Primitives
import Dormitory.QrPayload

/-!
# Decimals on the wire

`moneySchema`, `rateSchema` and `meterValueSchema` of
`packages/shared/src/zod/primitives.ts` against `toStorage`. The schemas mean to
refuse a negative zero, and each leaves out some of its spellings; `toStorage`
writes one for small negative amounts.
-/

namespace Dormitory

/-! ## Reading a text with a point -/

/-- Digits, a point and digits are read as one number, with the sign before them. -/
theorem decimalFormat_point {whole fraction : Nat} {ds fs : List Char} (negative : Bool)
    (digits : (ds ++ fs).all Char.isDigit) (some : ds ≠ []) (some' : fs ≠ [])
    (fits : ds.length ≤ whole) (fits' : fs.length ≤ fraction) :
    decimalFormat whole fraction ((if negative then ['-'] else []) ++ (ds ++ '.' :: fs)) =
      .some ⟨(if negative then -1 else 1) * (Nat.ofDigitChars 10 (ds ++ fs) 0 : Int),
        fs.length⟩ := by
  rw [List.all_append, Bool.and_eq_true] at digits
  obtain ⟨front, back⟩ := digits
  have point : ¬ ('.').isDigit = true := by decide
  have taken : (ds ++ '.' :: fs).takeWhile Char.isDigit = ds := by
    rw [List.takeWhile_append_of_pos (List.all_eq_true.mp front),
      List.takeWhile_cons_of_neg point, List.append_nil]
  have dropped : (ds ++ '.' :: fs).dropWhile Char.isDigit = '.' :: fs := by
    rw [List.dropWhile_append_of_pos (List.all_eq_true.mp front),
      List.dropWhile_cons_of_neg point]
  have decimals : fractionDigits fraction ('.' :: fs) = .some fs :=
    if_pos ⟨rfl, back, List.length_pos_iff.mpr some', fits'⟩
  have unsigned : ¬ (ds ++ '.' :: fs).head? = .some '-' := by
    obtain ⟨d, rest, rfl⟩ := List.exists_cons_of_ne_nil some
    intro head
    have digit := List.all_eq_true.mp front d List.mem_cons_self
    rw [Option.some.inj head] at digit
    exact absurd digit (by decide)
  have length : 1 ≤ ds.length ∧ ds.length ≤ whole := ⟨List.length_pos_iff.mpr some, fits⟩
  cases negative with
  | false =>
    simp only [Bool.false_eq_true, if_false, List.nil_append, decimalFormat, unsigned, taken,
      dropped, decimals, Option.bind_some, length, and_self, if_true, one_mul]
  | true =>
    simp only [if_true, List.cons_append, List.nil_append, decimalFormat, List.head?_cons,
      List.drop_succ_cons, List.drop_zero, taken, dropped, decimals, Option.bind_some, length,
      and_self, neg_mul, one_mul]

/-- A number is zero if and only if all of its digits are. -/
theorem ofDigitChars_eq_zero {cs : List Char} (digits : cs.all Char.isDigit) (n : Nat) :
    Nat.ofDigitChars 10 cs n = 0 ↔ n = 0 ∧ ∀ c ∈ cs, c = '0' := by
  induction cs generalizing n with
  | nil => simp
  | cons c cs ih =>
    rw [List.all_cons, Bool.and_eq_true] at digits
    have zero : '0'.toNat = 48 := rfl
    have digit : 48 ≤ c.toNat ∧ (c.toNat = 48 ↔ c = '0') := by
      have range : 48 ≤ c.toNat ∧ c.toNat ≤ 57 := by
        simpa [Char.isDigit, UInt32.le_iff_toNat_le] using digits.1
      refine ⟨range.1, fun same => ?_, fun same => same ▸ rfl⟩
      rw [← Char.ofNat_toNat c, same]
    rw [Nat.ofDigitChars_cons, ih digits.2, List.forall_mem_cons, zero, ← and_assoc, ← digit.2]
    constructor
    · rintro ⟨sum, rest⟩
      exact ⟨⟨by omega, by omega⟩, rest⟩
    · rintro ⟨⟨rfl, same⟩, rest⟩
      exact ⟨by omega, rest⟩

theorem fractionDigits_some {fraction : Nat} {rest decimals : List Char}
    (after : fractionDigits fraction rest = some decimals) :
    decimals.all Char.isDigit = true ∧ (rest = [] ∧ decimals = [] ∨ rest = '.' :: decimals) := by
  cases rest with
  | nil =>
    cases after
    exact ⟨rfl, .inl ⟨rfl, rfl⟩⟩
  | cons c cs =>
    obtain ⟨⟨rfl, digits, -⟩, same⟩ := Option.ite_none_right_eq_some.mp after
    cases same
    exact ⟨digits, .inr rfl⟩

/-- An accepted text is zero if and only if it has no other characters behind its sign. -/
theorem decimalFormat_eq_zero {whole fraction : Nat} {text : List Char} {d : Decimal}
    (read : decimalFormat whole fraction text = some d) (negative : text.head? = some '-') :
    d.value = 0 ↔ ∀ c ∈ text.tail, c = '0' ∨ c = '.' := by
  rw [decimalFormat, if_pos negative, List.drop_one] at read
  obtain ⟨decimals, after, read⟩ := Option.bind_eq_some_iff.mp read
  obtain ⟨-, same⟩ := Option.ite_none_right_eq_some.mp read
  obtain ⟨back, rest⟩ := fractionDigits_some after
  have parts := List.takeWhile_append_dropWhile (p := Char.isDigit) (l := text.tail)
  have front : (text.tail.takeWhile Char.isDigit).all Char.isDigit = true := List.all_takeWhile
  have all : (text.tail.takeWhile Char.isDigit ++ decimals).all Char.isDigit = true := by
    rw [List.all_append, front, back]
    rfl
  have zero : d.value = 0 ↔
      Nat.ofDigitChars 10 (text.tail.takeWhile Char.isDigit ++ decimals) 0 = 0 := by
    rw [← Option.some.inj same, Decimal.value, if_pos negative]
    simp
  have point : ∀ c ∈ text.tail.takeWhile Char.isDigit ++ decimals, c ≠ '.' := by
    rintro c mem rfl
    exact absurd (List.all_eq_true.mp all '.' mem) (by decide)
  rw [zero, ofDigitChars_eq_zero all]
  simp only [true_and]
  rcases rest with ⟨none, rfl⟩ | rest
  · rw [none, List.append_nil] at parts
    rw [parts, List.append_nil] at *
    exact ⟨fun zeros c mem => .inl (zeros c mem),
      fun zeros c mem => (zeros c mem).resolve_right (point c mem)⟩
  · rw [rest] at parts
    generalize text.tail.takeWhile Char.isDigit = digits at *
    rw [← parts]
    constructor
    · intro zeros c mem
      rcases List.mem_append.mp mem with mem | mem
      · exact .inl (zeros c (List.mem_append_left _ mem))
      · rcases List.mem_cons.mp mem with rfl | mem
        · exact .inr rfl
        · exact .inl (zeros c (List.mem_append_right _ mem))
    · intro zeros c mem
      refine (zeros c ?_).resolve_right (point c mem)
      rcases List.mem_append.mp mem with mem | mem
      · exact List.mem_append_left _ mem
      · exact List.mem_append_right _ (List.mem_cons_of_mem _ mem)

/-! ## Rounding -/

theorem Decimal.value_neg_iff (x : Decimal) : x.value < 0 ↔ x.coeff < 0 := by
  have pos : (0 : ℚ) < 10 ^ x.scale := by positivity
  rw [Decimal.value, div_lt_iff₀ pos, zero_mul]
  exact_mod_cast Iff.rfl

theorem halfAway_nonneg {y : ℚ} (nonneg : 0 ≤ y) : 0 ≤ halfAway y := by
  rw [halfAway, if_pos nonneg]
  exact Int.floor_nonneg.mpr (by linarith)

theorem halfAway_le {y : ℚ} {n : Nat} (le : y ≤ n) : halfAway y ≤ n := by
  rw [halfAway]
  split
  · have less : ⌊y + 1 / 2⌋ < (n : Int) + 1 := by
      rw [Int.floor_lt]
      push_cast
      linarith
    omega
  · rename_i negative
    have : 0 ≤ ⌊-y + 1 / 2⌋ := Int.floor_nonneg.mpr (by linarith)
    omega

theorem halfAway_eq_zero_of_neg {y : ℚ} (negative : y < 0) :
    halfAway y = 0 ↔ -(1 / 2) < y := by
  rw [halfAway, if_neg (not_le.mpr negative), neg_eq_zero, Int.floor_eq_zero_iff, Set.mem_Ico]
  constructor
  · intro inRange
    linarith [inRange.2]
  · intro small
    constructor <;> linarith

/-- Below zero, and less than half a satang. -/
def TinyNegative (x : Decimal) : Prop := -(1 / 200) < x.value ∧ x.value < 0

instance (x : Decimal) : Decidable (TinyNegative x) := inferInstanceAs (Decidable (_ ∧ _))

theorem tinyNegative_iff (x : Decimal) : TinyNegative x ↔ x.coeff < 0 ∧ toStorage x = 0 := by
  rw [TinyNegative, ← x.value_neg_iff, Decimal.toStorage_eq_halfAway]
  constructor
  · rintro ⟨small, negative⟩
    exact ⟨negative, (halfAway_eq_zero_of_neg (by linarith)).mpr (by linarith)⟩
  · rintro ⟨negative, zero⟩
    have := (halfAway_eq_zero_of_neg (by linarith)).mp zero
    exact ⟨by linarith, negative⟩

/-- The sign is that of the stored amount, but for the small negative ones. -/
theorem coeff_neg_iff (x : Decimal) : x.coeff < 0 ↔ toStorage x < 0 ∨ TinyNegative x := by
  rw [tinyNegative_iff]
  constructor
  · intro negative
    have flip : 0 ≤ halfAway (-(100 * x.value)) :=
      halfAway_nonneg (by linarith [(x.value_neg_iff).mpr negative])
    rw [halfAway_neg, ← Decimal.toStorage_eq_halfAway] at flip
    omega
  · rintro (below | tiny)
    · by_contra nonneg
      have := halfAway_nonneg (y := 100 * x.value)
        (by linarith [not_lt.mp (mt (x.value_neg_iff).mp nonneg)])
      rw [← Decimal.toStorage_eq_halfAway] at this
      omega
    · exact tiny.1

theorem natAbs_toStorage_le {x : Decimal} {n : Nat} (le : |100 * x.value| ≤ n) :
    (toStorage x).natAbs ≤ n := by
  have high := halfAway_le ((le_abs_self _).trans le)
  have low := halfAway_le ((neg_le_abs _).trans le)
  rw [halfAway_neg] at low
  rw [Decimal.toStorage_eq_halfAway]
  omega

/-! ## Storage strings -/

theorem toList_storageText (x : Decimal) : (storageText x).toList =
    (if decide (x.coeff < 0) then ['-'] else []) ++
      (storageString (toStorage x).natAbs).toList := by
  rw [storageText, String.toList_append]
  by_cases negative : x.coeff < 0
  · simp [negative]
  · simp [negative]

/-- The format admits every storage string of the range. -/
theorem decimalFormat_storageText {x : Decimal} (fits : (toStorage x).natAbs < 10 ^ 10) :
    decimalFormat 8 2 (storageText x).toList = some ⟨toStorage x, 2⟩ := by
  obtain ⟨ds, fs, text, some, two, reads⟩ :=
    PromptPay.storageString_twoDecimals (toStorage x).natAbs
  obtain ⟨digits, value⟩ := Option.ite_none_right_eq_some.mp reads
  have short := PromptPay.length_storageString fits
  rw [← String.length_toList, text, List.length_append, List.length_cons, two] at short
  have some' : fs ≠ [] := by
    rintro rfl
    cases two
  rw [toList_storageText, text, decimalFormat_point _ digits some some' (by omega) (by omega),
    Option.some.inj value, two]
  have sign := coeff_neg_iff x
  rw [tinyNegative_iff] at sign
  refine congrArg (fun coeff => Option.some (Decimal.mk coeff 2)) ?_
  by_cases negative : x.coeff < 0
  · simp only [negative, decide_true, if_true]
    omega
  · simp only [negative, decide_false, Bool.false_eq_true, if_false]
    omega

/-- What is written for zero. -/
theorem storageText_zero {x : Decimal} (zero : toStorage x = 0) :
    storageText x = if TinyNegative x then "-0.00" else "0.00" := by
  by_cases negative : x.coeff < 0
  · rw [if_pos ((tinyNegative_iff x).mpr ⟨negative, zero⟩), storageText, if_pos negative, zero]
    decide
  · rw [if_neg fun tiny => negative ((tinyNegative_iff x).mp tiny).1, storageText,
      if_neg negative, zero]
    decide

theorem moneySchema_storageText {x : Decimal} (fits : (toStorage x).natAbs < 10 ^ 10) :
    moneySchema (storageText x) = if TinyNegative x then none else some ⟨toStorage x, 2⟩ := by
  have read := decimalFormat_storageText fits
  rw [moneySchema, read]
  by_cases tiny : TinyNegative x
  · have text := storageText_zero ((tinyNegative_iff x).mp tiny).2
    rw [if_pos tiny] at text
    rw [if_pos tiny, text]
    rfl
  · have short : storageText x ≠ "-0" := by
      intro text
      rw [text, show decimalFormat 8 2 "-0".toList = some ⟨0, 0⟩ by decide] at read
      have scale : 0 = 2 := congrArg Decimal.scale (Option.some.inj read)
      exact absurd scale (by decide)
    have long : storageText x ≠ "-0.00" := by
      intro text
      have zero := read
      rw [text, show decimalFormat 8 2 "-0.00".toList = some ⟨0, 2⟩ by decide] at zero
      have unsigned := storageText_zero (congrArg Decimal.coeff (Option.some.inj zero)).symm
      rw [if_neg tiny, text] at unsigned
      exact absurd unsigned (by decide)
    rw [if_neg tiny, Option.filter_some, if_pos (decide_eq_true ⟨short, long⟩)]

/-- Texts of equal amounts differ in their sign only. -/
theorem storageText_eq_iff {x y : Decimal} (same : toStorage x = toStorage y) :
    storageText x = storageText y ↔ (x.coeff < 0 ↔ y.coeff < 0) := by
  have signed : ∀ t : String, "-" ++ t ≠ t := fun t => by simp
  rw [storageText, storageText, same]
  by_cases hx : x.coeff < 0 <;> by_cases hy : y.coeff < 0 <;> simp [hx, hy]
  exact (signed _).symm

/-! ## Negative zeros -/

/-- The text has a sign, and its number is zero. -/
def NegativeZero (s : String) (d : Decimal) : Prop := s.toList.head? = some '-' ∧ d.value = 0

/-- A sign, and then zeros and points only. -/
def MinusZeros (s : String) : Prop :=
  s.toList.head? = some '-' ∧ ∀ c ∈ s.toList.tail, c = '0' ∨ c = '.'

instance (s : String) : Decidable (MinusZeros s) :=
  @instDecidableAnd _ _ _ (List.decidableBAll (fun c => c = '0' ∨ c = '.') s.toList.tail)

theorem schema_format {schema : String → Option Decimal} {s : String} {d : Decimal}
    (known : schema ∈ [moneySchema, rateSchema, meterValueSchema]) (read : schema s = some d) :
    ∃ whole fraction, decimalFormat whole fraction s.toList = some d := by
  simp only [List.mem_cons, List.not_mem_nil, or_false] at known
  rcases known with rfl | rfl | rfl
  · exact ⟨8, 2, (Option.filter_eq_some_iff.mp read).1⟩
  · exact ⟨6, 4, (Option.filter_eq_some_iff.mp read).1⟩
  · exact ⟨10, 2, (Option.filter_eq_some_iff.mp read).1⟩

/-- **Storage strings survive the wire schema and are canonical but for the sign of zero**: the
schema refuses the string of a negative amount of less than half a satang, which is not that
of the other amounts that round to zero; and of the negative zeros, each schema accepts those
spellings that it does not list. -/
theorem toStorage_canonical_iff (x y : Decimal) (s : String) :
    (|x.value| ≤ 99999999.99 →
      ((∃ d, moneySchema (storageText x) = some d ∧ d.value = halfAway (100 * x.value) / 100) ↔
        ¬ TinyNegative x)) ∧
    (halfAway (100 * x.value) = halfAway (100 * y.value) →
      (storageText x = storageText y ↔ (TinyNegative x ↔ TinyNegative y))) ∧
    ∀ schema ∈ [moneySchema, rateSchema, meterValueSchema], ∀ d, schema s = some d →
      (¬ NegativeZero s d ↔ ¬ MinusZeros s) := by
  refine ⟨fun inRange => ?_, fun same => ?_, fun schema known d read => ?_⟩
  · have fits : (toStorage x).natAbs < 10 ^ 10 := by
      have le : |100 * x.value| ≤ (9999999999 : Nat) := by
        rw [abs_mul]
        norm_num at inRange ⊢
        linarith
      have := natAbs_toStorage_le le
      omega
    rw [moneySchema_storageText fits]
    constructor
    · rintro ⟨d, read, -⟩ tiny
      rw [if_pos tiny] at read
      cases read
    · intro ordinary
      refine ⟨_, if_neg ordinary, ?_⟩
      rw [Decimal.toStorage_eq_halfAway, Decimal.value]
      norm_num
  · rw [← Decimal.toStorage_eq_halfAway, ← Decimal.toStorage_eq_halfAway] at same
    rw [storageText_eq_iff same, coeff_neg_iff, coeff_neg_iff, ← same]
    by_cases below : toStorage x < 0
    · have ordinary : ¬ TinyNegative x ∧ ¬ TinyNegative y := by
        rw [tinyNegative_iff, tinyNegative_iff]
        omega
      simp only [below, ordinary, true_or]
    · simp only [below, false_or]
  · obtain ⟨whole, fraction, format⟩ := schema_format known read
    rw [NegativeZero, MinusZeros, not_iff_not]
    exact and_congr_right fun negative => decimalFormat_eq_zero format negative

/-- A baht and a quarter, twice, and once with a rounding. -/
theorem toStorage_canonical_quarter :
    (∃ d, moneySchema (storageText ⟨125, 2⟩) = some d ∧
      d.value = halfAway (100 * Decimal.value ⟨125, 2⟩) / 100) ∧
    storageText ⟨125, 2⟩ = storageText ⟨12496, 4⟩ ∧
    ¬ NegativeZero "-1.25" ⟨-125, 2⟩ := by
  obtain ⟨accepted, canonical, zeros⟩ := toStorage_canonical_iff ⟨125, 2⟩ ⟨12496, 4⟩ "-1.25"
  refine ⟨(accepted (by decide +kernel)).mpr (by decide +kernel), ?_, ?_⟩
  · exact (canonical (by decide +kernel)).mpr (by decide +kernel)
  · exact (zeros moneySchema (by simp) ⟨-125, 2⟩ (by decide)).mpr (by decide)

/-- A thousandth below zero, and two zeros before the point. -/
theorem negative_zero_on_the_wire :
    moneySchema (storageText ⟨-1, 3⟩) = none ∧
      storageText ⟨-1, 3⟩ ≠ storageText ⟨1, 3⟩ ∧
      (∃ d, moneySchema "-00.00" = some d ∧ NegativeZero "-00.00" d) := by
  refine ⟨by decide, by decide, ⟨0, 2⟩, by decide, by decide, ?_⟩
  norm_num [Decimal.value]

end Dormitory
