import Mathlib.Data.Rat.Floor
import Mathlib.Tactic.FieldSimp
import Mathlib.Tactic.Linarith
import Dormitory.Money

/-!
# Money against exact arithmetic

The twenty-digit operations of `Dormitory.Money` compared with the rationals:
within the range of a `Decimal(10,2)` column they lose nothing.
-/

namespace Dormitory

/-- The number a decimal stands for. -/
def Decimal.value (x : Decimal) : ℚ := x.coeff / 10 ^ x.scale

/-- Rounding to an integer, half away from zero. -/
def halfAway (x : ℚ) : Int := if 0 ≤ x then ⌊x + 1 / 2⌋ else -⌊-x + 1 / 2⌋

example : halfAway (5 / 2) = 3 ∧ halfAway (-5 / 2) = -3 := by decide +kernel

theorem halfAway_neg (x : ℚ) : halfAway (-x) = -halfAway x := by
  rcases lt_trichotomy x 0 with h | rfl | h
  · have neg : ¬ 0 ≤ x := not_le.mpr h
    have pos : 0 ≤ -x := by linarith
    simp [halfAway, neg, pos]
  · decide +kernel
  · have neg : ¬ 0 ≤ -x := by linarith
    simp [halfAway, neg, h.le]

theorem halfAway_intCast (n : Int) : halfAway n = n := by
  have half : ⌊(1 / 2 : ℚ)⌋ = 0 := by decide +kernel
  rcases le_total 0 n with h | h
  · have : (0 : ℚ) ≤ n := by exact_mod_cast h
    rw [halfAway, if_pos this, Int.floor_intCast_add, half, add_zero]
  · have flip : (n : ℚ) = -((-n : Int) : ℚ) := by push_cast; ring
    have : (0 : ℚ) ≤ ((-n : Int) : ℚ) := by
      have : 0 ≤ -n := by omega
      exact_mod_cast this
    rw [flip, halfAway_neg, halfAway, if_pos this, Int.floor_intCast_add, half]
    omega

namespace Decimal

theorem divRound_natCast (m d : Nat) (pos : 0 < d) :
    divRound (m : Int) d = halfAway ((m : ℚ) / d) := by
  have nonneg : (0 : ℚ) ≤ (m : ℚ) / d := by positivity
  have joined : (m : ℚ) / d + 1 / 2 = ((2 * m + d : Nat) : ℚ) / ((2 * d : Nat) : ℚ) := by
    have : (d : ℚ) ≠ 0 := by positivity
    push_cast
    field_simp
  have quotient : (2 * m + d) / (2 * d) = (m + d / 2) / d := by
    rw [← Nat.div_div_eq_div_mul, show (2 * m + d) / 2 = m + d / 2 by omega]
  rw [halfAway, if_pos nonneg, joined, Rat.floor_natCast_div_natCast,
    (divRound_nonneg (Int.natCast_nonneg m) d).1, Int.natAbs_natCast, ← quotient]
  exact Int.natCast_ediv _ _

/-- `divRound` is the exact quotient, rounded once. -/
theorem divRound_eq_halfAway (n : Int) {d : Nat} (pos : 0 < d) :
    divRound n d = halfAway ((n : ℚ) / d) := by
  rcases le_total 0 n with h | h
  · obtain ⟨m, rfl⟩ := Int.eq_ofNat_of_zero_le h
    exact divRound_natCast m d pos
  · obtain ⟨m, hm⟩ := Int.eq_ofNat_of_zero_le (show 0 ≤ -n by omega)
    obtain rfl : n = -(m : Int) := by omega
    rw [divRound_neg, divRound_natCast m d pos, ← halfAway_neg]
    push_cast
    rw [neg_div]

theorem toFixed_eq_halfAway (x : Decimal) (dp : Nat) :
    x.toFixed dp = halfAway (10 ^ dp * x.value) := by
  unfold toFixed value
  split
  · rename_i short
    have whole : (10 : ℚ) ^ dp * (x.coeff / 10 ^ x.scale) =
        ((x.coeff * 10 ^ (dp - x.scale) : Int) : ℚ) := by
      obtain ⟨k, rfl⟩ := Nat.exists_eq_add_of_le short
      push_cast
      rw [Nat.add_sub_cancel_left, pow_add]
      field_simp
    rw [whole, halfAway_intCast]
  · rename_i long
    have cut : (10 : ℚ) ^ dp * (x.coeff / 10 ^ x.scale) =
        (x.coeff : ℚ) / ((10 ^ (x.scale - dp) : Nat) : ℚ) := by
      obtain ⟨k, hk⟩ := Nat.exists_eq_add_of_le (Nat.le_of_lt (Nat.lt_of_not_le long))
      push_cast
      rw [hk, Nat.add_sub_cancel_left, pow_add]
      field_simp
    rw [cut, divRound_eq_halfAway _ (by positivity)]

theorem toStorage_eq_halfAway (x : Decimal) : toStorage x = halfAway (100 * x.value) := by
  rw [toStorage, toFixed_eq_halfAway]
  norm_num [moneyScale]

theorem value_mul (x y : Decimal) :
    value ⟨x.coeff * y.coeff, x.scale + y.scale⟩ = x.value * y.value := by
  simp only [value]
  push_cast
  rw [pow_add]
  field_simp

/-! ## Products in the range of a column -/

/-- At most `whole` digits before the point and `scale` after it. -/
def Digits (whole scale : Nat) (x : Decimal) : Prop :=
  x.scale ≤ scale ∧ x.coeff.natAbs < 10 ^ (whole + x.scale)

instance (whole scale : Nat) (x : Decimal) : Decidable (x.Digits whole scale) :=
  inferInstanceAs (Decidable (_ ∧ _))

theorem le_natAbs_divRound (n : Int) (d : Nat) : n.natAbs / d ≤ (divRound n d).natAbs := by
  by_cases zero : n = 0
  · simp [zero]
  · have sign : n.sign.natAbs = 1 := Int.natAbs_sign_of_ne_zero zero
    rw [divRound, Int.natAbs_mul, sign, Nat.one_mul, Int.natAbs_natCast]
    exact Nat.div_le_div_right (Nat.le_add_right _ _)

theorem le_natAbs_toFixed (x : Decimal) {dp k : Nat} (long : x.scale ≤ dp + k) :
    x.coeff.natAbs / 10 ^ k ≤ (x.toFixed dp).natAbs := by
  unfold toFixed
  split
  · rw [Int.natAbs_mul]
    refine Nat.le_trans (Nat.div_le_self _ _) (Nat.le_mul_of_pos_right _ ?_)
    exact Int.natAbs_pos.mpr (by positivity)
  · refine Nat.le_trans ?_ (le_natAbs_divRound _ _)
    exact Nat.div_le_div_left (Nat.pow_le_pow_right (by decide) (by omega)) (by positivity)

/-- A long product is beyond every column, before it is rounded and after. -/
theorem round_beyond {x : Decimal} (scale : x.scale ≤ 6)
    (digits : x.coeff.natAbs < 10 ^ (16 + x.scale)) (long : 10 ^ 20 ≤ x.coeff.natAbs) :
    10 ^ 10 ≤ (toStorage x.round).natAbs ∧ 10 ^ 10 ≤ (toStorage x).natAbs := by
  have five : 5 ≤ x.scale := by
    by_contra few
    have : 10 ^ (16 + x.scale) ≤ 10 ^ 20 := Nat.pow_le_pow_right (by decide) (by omega)
    omega
  have exact : x.coeff.natAbs / 10 ^ 4 ≤ (x.toFixed 2).natAbs := le_natAbs_toFixed x (by omega)
  have enough : 10 ^ 20 / 10 ^ 4 ≤ x.coeff.natAbs / 10 ^ 4 := Nat.div_le_div_right long
  refine ⟨?_, by simp only [toStorage, moneyScale]; omega⟩
  have below : x.coeff.natAbs < 10 ^ 22 :=
    Nat.lt_of_lt_of_le digits (Nat.pow_le_pow_right (by decide) (by omega))
  have log : Nat.log 10 x.coeff.natAbs - 19 ≤ 2 := by
    have := Nat.log_lt_of_lt_pow (by omega) below
    omega
  generalize hdrop : Nat.log 10 x.coeff.natAbs - 19 = drop at log
  have short : ¬ x.coeff.natAbs < 10 ^ 20 := by omega
  have kept : drop ≤ x.scale := by omega
  simp only [round, if_neg short, hdrop, if_pos kept]
  have quotient := le_natAbs_divRound x.coeff (10 ^ drop)
  have cut : x.coeff.natAbs / 10 ^ 2 ≤ x.coeff.natAbs / 10 ^ drop :=
    Nat.div_le_div_left (Nat.pow_le_pow_right (by decide) log) (by positivity)
  have large : 10 ^ 20 / 10 ^ 2 ≤ x.coeff.natAbs / 10 ^ 2 := Nat.div_le_div_right long
  have stored : (divRound x.coeff (10 ^ drop)).natAbs / 10 ^ 4 ≤
      (toFixed ⟨divRound x.coeff (10 ^ drop), x.scale - drop⟩ 2).natAbs :=
    le_natAbs_toFixed ⟨divRound x.coeff (10 ^ drop), x.scale - drop⟩
      (show x.scale - drop ≤ 2 + 4 by omega)
  simp only [toStorage, moneyScale]
  have last : 10 ^ 18 / 10 ^ 4 ≤ (divRound x.coeff (10 ^ drop)).natAbs / 10 ^ 4 :=
    Nat.div_le_div_right (by omega)
  omega

/-- **A stored line total is rounded once**: as soon as the product, rounded or
exact, fits its column, the two are the same. -/
theorem toStorage_times {q u : Decimal} (hq : q.Digits 10 2) (hu : u.Digits 6 4)
    (fits : (toStorage (q.times u)).natAbs < 10 ^ 10 ∨
      (halfAway (100 * (q.value * u.value))).natAbs < 10 ^ 10) :
    toStorage (q.times u) = halfAway (100 * (q.value * u.value)) := by
  rw [← value_mul, ← toStorage_eq_halfAway] at fits ⊢
  obtain ⟨scaleQ, digitsQ⟩ := hq
  obtain ⟨scaleU, digitsU⟩ := hu
  by_cases small : (q.coeff * u.coeff).natAbs < 10 ^ 20
  · rw [times, round_small small]
  · have digits : (q.coeff * u.coeff).natAbs < 10 ^ (16 + (q.scale + u.scale)) := by
      rw [Int.natAbs_mul]
      calc q.coeff.natAbs * u.coeff.natAbs < 10 ^ (10 + q.scale) * 10 ^ (6 + u.scale) :=
            Nat.mul_lt_mul'' digitsQ digitsU
        _ = 10 ^ (16 + (q.scale + u.scale)) := by rw [← pow_add]; congr 1; omega
    have beyond := round_beyond (x := ⟨q.coeff * u.coeff, q.scale + u.scale⟩) (by simp only; omega)
      digits (by simp only; omega)
    have same : q.times u = round ⟨q.coeff * u.coeff, q.scale + u.scale⟩ := rfl
    rw [← same] at beyond
    omega

end Decimal

/-! ## Sums in the range of a column -/

/-- All sums of the first few have at most twenty digits. -/
def Running (xs : List Int) : Prop := ∀ k, (xs.take k).sum.natAbs < 10 ^ 20

theorem Running.of_bound {xs : List Int} (bound : ∀ a ∈ xs, a.natAbs < 10 ^ 10)
    (len : xs.length < 2 ^ 32) : Running xs := by
  have sums : ∀ ys : List Int, (∀ a ∈ ys, a.natAbs < 10 ^ 10) →
      ys.sum.natAbs ≤ ys.length * 10 ^ 10 := by
    intro ys
    induction ys with
    | nil => simp
    | cons a as ih =>
      intro bound
      have first := bound a (by simp)
      have rest := ih fun b hb => bound b (by simp [hb])
      rw [List.sum_cons, List.length_cons]
      omega
  intro k
  have part := sums (xs.take k) fun a ha => bound a (List.mem_of_mem_take ha)
  have short : (xs.take k).length ≤ xs.length := (List.take_sublist k xs).length_le
  omega

theorem foldl_plus_running {xs : List Int} {x : Decimal} (scale : x.scale ≤ 2)
    (running : ∀ k, (toStorage x + (xs.take k).sum).natAbs < 10 ^ 20) :
    toStorage ((xs.map satang).foldl Decimal.plus x) = toStorage x + xs.sum := by
  induction xs generalizing x with
  | nil => simp
  | cons a as ih =>
    have first : (satang (toStorage x + a)).coeff.natAbs < 10 ^ 20 := by
      simpa [satang] using running 1
    have next : x.plus (satang a) = satang (toStorage x + a) := by
      rw [Decimal.plus_satang scale, Decimal.round_small first]
    rw [List.map_cons, List.foldl_cons, next, ih (Nat.le_refl _), Decimal.toStorage_satang,
      List.sum_cons, add_assoc]
    intro k
    rw [Decimal.toStorage_satang, add_assoc, ← List.sum_cons, ← List.take_succ_cons]
    exact running (k + 1)

theorem moneySum_running {xs : List Int} (running : Running xs) :
    toStorage (moneySum (xs.map satang)) = xs.sum := by
  have zero : toStorage moneyZero = 0 := rfl
  have sum := foldl_plus_running (x := moneyZero) (by decide) fun k => by
    rw [zero, zero_add]
    exact running k
  rwa [zero, zero_add] at sum

/-- **A total is the exact sum** of line totals that fit their column. An array
has fewer than `2 ^ 32` elements. -/
theorem moneySum_exact (xs : List Int) (bound : ∀ a ∈ xs, a.natAbs < 10 ^ 10)
    (len : xs.length < 2 ^ 32) : toStorage (moneySum (xs.map satang)) = xs.sum :=
  moneySum_running (.of_bound bound len)

end Dormitory
