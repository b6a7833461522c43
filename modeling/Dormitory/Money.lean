import Mathlib.Data.Nat.Log
import Mathlib.Tactic.Ring
import Mathlib.Tactic.NormNum
import Mathlib.Tactic.Positivity

/-!
# Money

`packages/shared/src/money.ts` over `decimal.js` with `precision: 20` and
`ROUND_HALF_UP`, and the `Decimal(p, s)` columns the values are stored in. A
`Decimal` is exact; `plus`, `minus` and `times` round their result to twenty
significant digits, half away from zero.
-/

namespace Dormitory

/-- `coeff * 10 ^ -scale`. -/
structure Decimal where
  coeff : Int
  scale : Nat
  deriving DecidableEq, Repr

namespace Decimal

/-- `|n| / d` rounded half away from zero, with the sign of `n`. -/
def divRound (n : Int) (d : Nat) : Int := n.sign * ((n.natAbs + d / 2) / d : Nat)

/-- The result of an operation, cut to twenty significant digits. -/
def round (x : Decimal) : Decimal :=
  if x.coeff.natAbs < 10 ^ 20 then x
  else
    let drop := Nat.log 10 x.coeff.natAbs - 19
    let q := divRound x.coeff (10 ^ drop)
    if drop ≤ x.scale then ⟨q, x.scale - drop⟩ else ⟨q * 10 ^ (drop - x.scale), 0⟩

def neg (x : Decimal) : Decimal := ⟨-x.coeff, x.scale⟩

def plus (x y : Decimal) : Decimal :=
  round ⟨x.coeff * 10 ^ (max x.scale y.scale - x.scale) +
    y.coeff * 10 ^ (max x.scale y.scale - y.scale), max x.scale y.scale⟩

def minus (x y : Decimal) : Decimal := x.plus y.neg

def times (x y : Decimal) : Decimal := round ⟨x.coeff * y.coeff, x.scale + y.scale⟩

/-- `toFixed(dp)`, as a number of units of `10 ^ -dp`. -/
def toFixed (x : Decimal) (dp : Nat) : Int :=
  if x.scale ≤ dp then x.coeff * 10 ^ (dp - x.scale)
  else divRound x.coeff (10 ^ (x.scale - dp))

end Decimal

/-- `MONEY_SCALE`. -/
def moneyScale : Nat := 2

def moneyZero : Decimal := ⟨0, 0⟩

def moneySub (a b : Decimal) : Decimal := a.minus b

def moneyMul (a factor : Decimal) : Decimal := a.times factor

def moneySum (values : List Decimal) : Decimal := values.foldl Decimal.plus moneyZero

/-- The stored string, as a number of satang. -/
def toStorage (m : Decimal) : Int := m.toFixed moneyScale

/-- A two-digit decimal given in satang. -/
def satang (n : Int) : Decimal := ⟨n, moneyScale⟩

/-- A value of a `Decimal(p, s)` column, in units of `10 ^ -s`. -/
structure Numeric (p s : Nat) where
  units : Int
  fits : units.natAbs < 10 ^ p
  deriving DecidableEq

namespace Numeric
variable {p s : Nat}

def toDecimal (x : Numeric p s) : Decimal := ⟨x.units, s⟩

/-- What the column makes of a value: it rounds to `s` digits and refuses more
than `p`. -/
def store (p s : Nat) (x : Decimal) : Option (Numeric p s) :=
  if h : (x.toFixed s).natAbs < 10 ^ p then some ⟨x.toFixed s, h⟩ else none

theorem store_eq_some {x : Decimal} {n : Numeric p s} :
    store p s x = some n ↔ n.units = x.toFixed s := by
  unfold store
  constructor
  · intro h
    split at h
    · cases h
      rfl
    · cases h
  · intro h
    have fits : (x.toFixed s).natAbs < 10 ^ p := h ▸ n.fits
    rw [dif_pos fits]
    obtain ⟨units, _⟩ := n
    exact congrArg some (by subst h; rfl)

theorem store_isSome {x : Decimal} : (store p s x).isSome ↔ (x.toFixed s).natAbs < 10 ^ p := by
  unfold store
  split <;> simp_all

end Numeric

/-! ## Rounding keeps comparisons with a stored amount -/

namespace Decimal

theorem divRound_nonneg {n : Int} (h : 0 ≤ n) (d : Nat) :
    divRound n d = ((n.natAbs + d / 2) / d : Nat) ∧ 0 ≤ divRound n d := by
  rcases h.lt_or_eq with h | rfl
  · simp only [divRound, Int.sign_eq_one_of_pos h, one_mul, true_and]
    exact Int.natCast_nonneg _
  · simp only [divRound, Int.sign_zero, zero_mul, le_refl, and_true, Int.natAbs_zero, zero_add]
    rcases Nat.eq_zero_or_pos d with rfl | hd
    · simp
    · rw [Nat.div_eq_of_lt (Nat.div_lt_self hd (by decide))]; rfl

/-- Twenty digits of a large coefficient still make a large number. -/
theorem divRound_large {n : Int} (h : 10 ^ 20 ≤ n) :
    10 ^ 20 ≤ divRound n (10 ^ (Nat.log 10 n.natAbs - 19)) * 10 ^ (Nat.log 10 n.natAbs - 19) := by
  obtain ⟨m, rfl⟩ := Int.eq_ofNat_of_zero_le (le_trans (by positivity) h)
  have hm : 10 ^ 20 ≤ m := by exact_mod_cast h
  have log20 : 20 ≤ Nat.log 10 m := Nat.le_log_of_pow_le (by decide) hm
  have hlog : 10 ^ Nat.log 10 m ≤ m := Nat.pow_log_le_self 10 (by omega)
  obtain ⟨k, hk⟩ : ∃ k, Nat.log 10 m = k + 20 := ⟨Nat.log 10 m - 20, by omega⟩
  have quotient : 10 ^ 19 ≤ (m + 10 ^ (k + 1) / 2) / 10 ^ (k + 1) := by
    rw [Nat.le_div_iff_mul_le (by positivity)]
    calc 10 ^ 19 * 10 ^ (k + 1) = 10 ^ (k + 20) := by rw [← pow_add]; congr 1; omega
      _ ≤ m := hk ▸ hlog
      _ ≤ _ := Nat.le_add_right _ _
  have power : 10 ≤ 10 ^ (k + 1) := by
    calc 10 = 10 ^ 1 := rfl
      _ ≤ 10 ^ (k + 1) := Nat.pow_le_pow_right (by decide) (by omega)
  rw [(divRound_nonneg (Int.natCast_nonneg m) _).1, Int.natAbs_natCast, hk,
    show k + 20 - 19 = k + 1 by omega]
  have : 10 ^ 19 * 10 ≤ (m + 10 ^ (k + 1) / 2) / 10 ^ (k + 1) * 10 ^ (k + 1) :=
    Nat.mul_le_mul quotient power
  exact_mod_cast this

theorem round_small {x : Decimal} (h : x.coeff.natAbs < 10 ^ 20) : x.round = x := if_pos h

theorem toStorage_satang (n : Int) : toStorage (satang n) = n := by
  simp [toStorage, satang, toFixed]

/-- Rounding a number of satang keeps it, or leaves it beyond every column. -/
theorem round_satang {n : Int} (h : 0 ≤ n) :
    (round (satang n)).scale ≤ 2 ∧ (toStorage (round (satang n)) = n ∨
      (10 ^ 20 ≤ toStorage (round (satang n)) ∧ 10 ^ 20 ≤ n)) := by
  by_cases small : n.natAbs < 10 ^ 20
  · rw [round_small small]
    exact ⟨le_refl _, .inl (toStorage_satang n)⟩
  · have big : (10 : Int) ^ 20 ≤ n := by omega
    have large := divRound_large big
    generalize hd : Nat.log 10 n.natAbs - 19 = drop at large
    generalize hq : divRound n (10 ^ drop) = q at large
    simp only [round, satang, if_neg small, hd, hq, moneyScale]
    split
    · rename_i hle
      refine ⟨by simp, .inr ⟨?_, big⟩⟩
      simp only [toStorage, toFixed, moneyScale, Nat.sub_le, if_true]
      rwa [show 2 - (2 - drop) = drop by omega]
    · rename_i hgt
      refine ⟨by simp, .inr ⟨?_, big⟩⟩
      simp only [toStorage, toFixed, moneyScale, Nat.zero_le, if_true, Nat.sub_zero]
      rwa [mul_assoc, ← pow_add, show drop - 2 + 2 = drop by omega]

theorem divRound_neg (n : Int) (d : Nat) : divRound (-n) d = -divRound n d := by
  simp [divRound]

theorem toFixed_neg (x : Decimal) (dp : Nat) : x.neg.toFixed dp = -x.toFixed dp := by
  by_cases h : x.scale ≤ dp
  · simp [toFixed, neg, h]
  · simp [toFixed, neg, h, divRound_neg]

theorem round_neg (x : Decimal) : x.neg.round = x.round.neg := by
  simp only [round, neg, Int.natAbs_neg]
  split
  · rfl
  · split <;> simp [divRound_neg]

/-- Rounding never moves an amount across zero. -/
theorem toStorage_round_pos (n : Int) : 0 < toStorage (round (satang n)) ↔ 0 < n := by
  rcases le_total 0 n with h | h
  · obtain ⟨-, hv⟩ := round_satang h
    omega
  · have hneg : 0 ≤ -n := by omega
    obtain ⟨-, hv⟩ := round_satang hneg
    have flip : satang n = (satang (-n)).neg := by simp [satang, neg]
    have : toStorage (round (satang n)) = -toStorage (round (satang (-n))) := by
      rw [flip, round_neg]
      exact toFixed_neg _ _
    omega

theorem plus_satang {x : Decimal} (hs : x.scale ≤ 2) (a : Int) :
    x.plus (satang a) = round (satang (toStorage x + a)) := by
  simp only [plus, satang, moneyScale, toStorage, toFixed, hs, if_true, max_eq_right hs]
  simp

end Decimal

/-- The running sum is exact, or both it and the exact sum are out of range. -/
theorem foldl_plus_satang (xs : List Int) (hx : ∀ a ∈ xs, 0 ≤ a) (x : Decimal) (n : Int)
    (hs : x.scale ≤ 2) (hn : 0 ≤ n) (hv : toStorage x = n ∨ (10 ^ 20 ≤ toStorage x ∧ 10 ^ 20 ≤ n)) :
    toStorage ((xs.map satang).foldl Decimal.plus x) = n + xs.sum ∨
      (10 ^ 20 ≤ toStorage ((xs.map satang).foldl Decimal.plus x) ∧ 10 ^ 20 ≤ n + xs.sum) := by
  induction xs generalizing x n with
  | nil => simpa using hv
  | cons a as ih =>
    have ha : 0 ≤ a := hx a (by simp)
    have hpos : 0 ≤ toStorage x + a := by rcases hv with hv | hv <;> omega
    obtain ⟨hs', hv'⟩ := Decimal.round_satang hpos
    have := ih (fun b hb => hx b (by simp [hb])) (x.plus (satang a)) (n + a)
      (by rw [Decimal.plus_satang hs]; exact hs') (by omega)
      (by
        rw [Decimal.plus_satang hs]
        rcases hv with hv | hv <;> rcases hv' with hv' | hv' <;> omega)
    simpa only [List.map_cons, List.foldl_cons, List.sum_cons, add_assoc] using this

theorem moneySum_satang (xs : List Int) (hx : ∀ a ∈ xs, 0 ≤ a) :
    toStorage (moneySum (xs.map satang)) = xs.sum ∨
      (10 ^ 20 ≤ toStorage (moneySum (xs.map satang)) ∧ 10 ^ 20 ≤ xs.sum) := by
  have := foldl_plus_satang xs hx moneyZero 0 (by decide) (le_refl 0) (.inl (by decide))
  simpa [moneySum] using this

theorem toStorage_moneySub (a b : Int) :
    toStorage (moneySub (satang a) (satang b)) = toStorage (Decimal.round (satang (a - b))) := by
  have : (satang b).neg = satang (-b) := rfl
  rw [moneySub, Decimal.minus, this, Decimal.plus_satang (le_refl _), Decimal.toStorage_satang]
  rfl

end Dormitory
