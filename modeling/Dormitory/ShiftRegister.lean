import Mathlib.Algebra.CharP.Two
import Mathlib.Algebra.Field.ZMod
import Mathlib.Algebra.Polynomial.Div
import Mathlib.Data.Nat.Size
import Mathlib.Data.ZMod.Basic
import Mathlib.RingTheory.Coprime.Lemmas
import Mathlib.Tactic.LinearCombination

/-!
# Shift registers

A register of `w` bits that is shifted to the left, with the taps `t` taken from
it for every bit that falls out, divides by `X ^ w + t` over the field of two
elements. What is fed into it leaves a remainder, and two texts that differ in
one symbol leave different ones.
-/

namespace Dormitory.ShiftRegister

open Polynomial

/-! ## Bits as coefficients -/

/-- The polynomial whose coefficients are the bits of `n`. -/
noncomputable def poly (n : Nat) : (ZMod 2)[X] :=
  ∑ i ∈ Finset.range n.size, if n.testBit i then X ^ i else 0

theorem coeff_poly (n i : Nat) : (poly n).coeff i = if n.testBit i then 1 else 0 := by
  have term : ∀ j, (if n.testBit j then X ^ j else 0 : (ZMod 2)[X]).coeff i =
      if i = j then (if n.testBit i then 1 else 0) else 0 := by
    intro j
    by_cases same : i = j
    · subst same
      split <;> simp
    · split <;> simp [coeff_X_pow, same]
  rw [poly, finsetSum_coeff, Finset.sum_congr rfl fun j _ => term j, Finset.sum_ite_eq]
  split
  · rfl
  · rename_i outside
    have small : n < 2 ^ i := Nat.size_le.mp (by simpa using outside)
    rw [Nat.testBit_lt_two_pow small, if_neg (by decide)]

theorem poly_injective {m n : Nat} (h : poly m = poly n) : m = n := by
  apply Nat.eq_of_testBit_eq
  intro i
  have same := congrArg (fun p => p.coeff i) h
  simp only [coeff_poly] at same
  cases hm : m.testBit i <;> cases hn : n.testBit i <;> simp [hm, hn] at same ⊢

theorem poly_xor (m n : Nat) : poly (m ^^^ n) = poly m + poly n := by
  ext i
  simp only [coeff_add, coeff_poly, Nat.testBit_xor]
  cases m.testBit i <;> cases n.testBit i <;> decide

theorem poly_shiftLeft (n k : Nat) : poly (n <<< k) = poly n * X ^ k := by
  ext i
  rw [coeff_mul_X_pow', coeff_poly, Nat.testBit_shiftLeft]
  by_cases high : k ≤ i
  · simp [high, coeff_poly]
  · simp [high]

theorem poly_two_pow (k : Nat) : poly (2 ^ k) = X ^ k := by
  ext i
  rw [coeff_poly, coeff_X_pow, Nat.testBit_two_pow]
  simp [eq_comm]

theorem degree_poly {n k : Nat} (h : n < 2 ^ k) : (poly n).degree < k := by
  rw [degree_lt_iff_coeff_zero]
  intro i high
  have small : n < 2 ^ i := h.trans_le (Nat.pow_le_pow_right (by decide) high)
  rw [coeff_poly, Nat.testBit_lt_two_pow small, if_neg (by decide)]

/-! ## One shift -/

section
variable {w t : Nat}

/-- The divisor of a register. -/
noncomputable def divisor (w t : Nat) : (ZMod 2)[X] := X ^ w + poly t

theorem divisor_monic (taps : t < 2 ^ w) : (divisor w t).Monic := monic_X_pow_add (degree_poly taps)

theorem degree_divisor (taps : t < 2 ^ w) : (divisor w t).degree = w := by
  rw [divisor, degree_add_eq_left_of_degree_lt] <;> rw [degree_X_pow]
  exact degree_poly taps

/-- A divisor with a constant term has no factor `X`. -/
theorem divisor_coprime (pos : 0 < w) (lowest : t.testBit 0 = true) :
    IsCoprime (divisor w t) X := by
  have constant : (divisor w t).coeff 0 = 1 := by
    simp [divisor, coeff_poly, lowest, coeff_X_pow, Nat.ne_of_lt pos]
  have split := divX_mul_X_add (divisor w t)
  rw [constant, C_1] at split
  exact ⟨1, -divX (divisor w t), by linear_combination -split⟩

/-- One shift of a register of `w` bits with the taps `t`. -/
def shift (w t r : Nat) : Nat :=
  if r.testBit (w - 1) then ((r <<< 1) ^^^ t) % 2 ^ w else (r <<< 1) % 2 ^ w

theorem shift_lt (w t r : Nat) : shift w t r < 2 ^ w := by
  unfold shift
  split <;> exact Nat.mod_lt _ (Nat.two_pow_pos w)

/-- The bit that a shift moves out. -/
theorem mod_eq_xor {n : Nat} (out : n.testBit w = true) (fits : n < 2 ^ (w + 1)) :
    n % 2 ^ w = n ^^^ 2 ^ w := by
  apply Nat.eq_of_testBit_eq
  intro i
  rw [Nat.testBit_mod_two_pow, Nat.testBit_xor, Nat.testBit_two_pow]
  rcases Nat.lt_trichotomy i w with low | rfl | high
  · simp [low, Nat.ne_of_gt low]
  · simp [out]
  · have none : n.testBit i = false :=
      Nat.testBit_lt_two_pow (fits.trans_le (Nat.pow_le_pow_right (by decide) high))
    simp [none, Nat.ne_of_lt high]

/-- A shift multiplies by `X`, up to the divisor. -/
theorem poly_shift (pos : 0 < w) (taps : t < 2 ^ w) {r : Nat} (fits : r < 2 ^ w) :
    poly (shift w t r) = poly r * X ^ 1 %ₘ divisor w t := by
  have wide : r <<< 1 < 2 ^ (w + 1) := by
    rw [Nat.shiftLeft_eq, Nat.pow_succ]
    omega
  have top : (r <<< 1).testBit w = r.testBit (w - 1) := by
    rw [Nat.testBit_shiftLeft]
    simp [show 1 ≤ w from pos]
  have degree : (poly (shift w t r)).degree < (divisor w t).degree := by
    rw [degree_divisor taps]
    exact degree_poly (shift_lt w t r)
  have taken : ∃ q, poly (shift w t r) + divisor w t * q = poly r * X ^ 1 := by
    rw [← poly_shiftLeft]
    by_cases out : r.testBit (w - 1) = true
    · refine ⟨1, ?_⟩
      have noTap : t.testBit w = false := Nat.testBit_lt_two_pow taps
      have moved : ((r <<< 1) ^^^ t) % 2 ^ w = (r <<< 1) ^^^ t ^^^ 2 ^ w := by
        refine mod_eq_xor (by rw [Nat.testBit_xor, top, out, noTap]; rfl) ?_
        exact Nat.xor_lt_two_pow wide (taps.trans (Nat.pow_lt_pow_succ (by decide)))
      rw [shift, if_pos out, moved, poly_xor, poly_xor, poly_two_pow, divisor]
      have twice := CharTwo.add_self_eq_zero (X ^ w + poly t : (ZMod 2)[X])
      linear_combination twice
    · refine ⟨0, ?_⟩
      have small : r <<< 1 < 2 ^ w := by
        by_contra large
        have top' := Nat.testBit_of_two_pow_le_and_two_pow_add_one_gt (not_lt.mp large) wide
        rw [top] at top'
        exact out top'
      rw [shift, if_neg out, Nat.mod_eq_of_lt small, mul_zero, add_zero]
  obtain ⟨q, taken⟩ := taken
  exact (div_modByMonic_unique q _ (divisor_monic taps) ⟨taken, degree⟩).2.symm

/-- Several shifts multiply by a power of `X`. -/
theorem poly_shifts (pos : 0 < w) (taps : t < 2 ^ w) {r : Nat} (fits : r < 2 ^ w) (k : Nat) :
    (shift w t)^[k] r < 2 ^ w ∧
      divisor w t ∣ poly r * X ^ k - poly ((shift w t)^[k] r) := by
  induction k with
  | zero => exact ⟨fits, by simp⟩
  | succ k ih =>
    obtain ⟨fits, divides⟩ := ih
    rw [Function.iterate_succ_apply', poly_shift pos taps fits]
    refine ⟨shift_lt w t _, ?_⟩
    have step := modByMonic_add_div (poly ((shift w t)^[k] r) * X ^ 1) (divisor w t)
    obtain ⟨q, hq⟩ := divides
    refine ⟨q * X + poly ((shift w t)^[k] r) * X ^ 1 /ₘ divisor w t, ?_⟩
    linear_combination X * hq - step

/-! ## Feeding symbols -/

/-- A symbol of `k` bits is fed into the upper end of the register. -/
def feed (w t k r code : Nat) : Nat := (shift w t)^[k] (r ^^^ (code <<< (w - k)))

/-- The register after a text of symbols. -/
def run (w t k start : Nat) (codes : List Nat) : Nat := codes.foldl (feed w t k) start

/-- A text of symbols of `k` bits as one polynomial. -/
noncomputable def message (k : Nat) (codes : List Nat) : (ZMod 2)[X] :=
  codes.foldl (fun m code => m * X ^ k + poly code) 0

/-- What the register divides: the symbols, and what it starts with before them. -/
noncomputable def dividend (w k start : Nat) (codes : List Nat) : (ZMod 2)[X] :=
  poly start * X ^ (k * codes.length) + message k codes * X ^ w

section
variable {k start : Nat}

theorem message_append (codes codes' : List Nat) : message k (codes ++ codes') =
    message k codes * X ^ (k * codes'.length) + message k codes' := by
  have general : ∀ m : (ZMod 2)[X], codes'.foldl (fun m code => m * X ^ k + poly code) m =
      m * X ^ (k * codes'.length) + message k codes' := by
    unfold message
    induction codes' with
    | nil => simp
    | cons code codes' ih =>
      intro m
      rw [List.foldl_cons, ih, List.foldl_cons, ih (0 * X ^ k + poly code), List.length_cons]
      ring
  rw [message, List.foldl_append]
  exact general _

theorem message_singleton (code : Nat) : message k [code] = poly code := by simp [message]

theorem dividend_append (codes : List Nat) (code : Nat) :
    dividend w k start (codes ++ [code]) =
      dividend w k start codes * X ^ k + poly code * X ^ w := by
  rw [dividend, dividend, message_append, message_singleton, List.length_append,
    List.length_singleton]
  ring

theorem feed_lt (pos : 0 < k) (r code : Nat) : feed w t k r code < 2 ^ w := by
  obtain ⟨k, rfl⟩ := Nat.exists_eq_add_one_of_ne_zero (Nat.ne_of_gt pos)
  rw [feed, Function.iterate_succ_apply']
  exact shift_lt w t _

theorem run_lt (pos : 0 < k) (fits : start < 2 ^ w) (codes : List Nat) :
    run w t k start codes < 2 ^ w := by
  unfold run
  induction codes generalizing start with
  | nil => exact fits
  | cons code codes ih => exact ih (feed_lt pos start code)

variable (pos : 0 < k) (narrow : k ≤ w) (taps : t < 2 ^ w)
include pos narrow taps

theorem dvd_feed {r code : Nat} (fits : r < 2 ^ w) (small : code < 2 ^ k) :
    divisor w t ∣ poly r * X ^ k + poly code * X ^ w - poly (feed w t k r code) := by
  have room : code <<< (w - k) < 2 ^ w := by
    rw [Nat.shiftLeft_eq]
    calc code * 2 ^ (w - k) < 2 ^ k * 2 ^ (w - k) :=
          Nat.mul_lt_mul_of_pos_right small (Nat.two_pow_pos _)
      _ = 2 ^ w := by rw [← pow_add, Nat.add_sub_cancel' narrow]
  have divides := (poly_shifts (pos.trans_le narrow) taps (Nat.xor_lt_two_pow fits room) k).2
  have split : X ^ w = (X ^ (w - k) * X ^ k : (ZMod 2)[X]) := by
    rw [← pow_add, Nat.sub_add_cancel narrow]
  rw [poly_xor, poly_shiftLeft] at divides
  have same : poly r * X ^ k + poly code * X ^ w =
      (poly r + poly code * X ^ (w - k)) * X ^ k := by
    rw [split]
    ring
  rw [same]
  exact divides

theorem dvd_run (fits : start < 2 ^ w) {codes : List Nat} (small : ∀ code ∈ codes, code < 2 ^ k) :
    divisor w t ∣ dividend w k start codes - poly (run w t k start codes) := by
  induction codes using List.reverseRecOn with
  | nil => simp [dividend, message, run]
  | append_singleton codes code ih =>
    rw [List.forall_mem_append] at small
    obtain ⟨q, hq⟩ := ih small.1
    obtain ⟨q', hq'⟩ := dvd_feed pos narrow taps (run_lt (t := t) pos fits codes)
      (small.2 code List.mem_cons_self)
    have last : run w t k start (codes ++ [code]) = feed w t k (run w t k start codes) code := by
      rw [run, run, List.foldl_append]
      rfl
    rw [last, dividend_append]
    refine ⟨q * X ^ k + q', ?_⟩
    linear_combination X ^ k * hq + hq'

/-- **A register leaves the remainder** of what is fed into it. -/
theorem run_remainder (fits : start < 2 ^ w) {codes : List Nat}
    (small : ∀ code ∈ codes, code < 2 ^ k) :
    poly (run w t k start codes) = dividend w k start codes %ₘ divisor w t := by
  have monic := divisor_monic taps
  have low : (poly (run w t k start codes)).degree < (divisor w t).degree := by
    rw [degree_divisor taps]
    exact degree_poly (run_lt pos fits codes)
  rw [modByMonic_eq_of_dvd_sub monic (dvd_run pos narrow taps fits small),
    (modByMonic_eq_self_iff monic).mpr low]

/-- **One changed symbol changes the remainder**, if the lowest tap is taken. -/
theorem run_changed (lowest : t.testBit 0 = true) (fits : start < 2 ^ w)
    {before after : List Nat} {code code' : Nat}
    (small : ∀ c ∈ before ++ code :: after, c < 2 ^ k) (small' : code' < 2 ^ k)
    (same : run w t k start (before ++ code :: after) =
      run w t k start (before ++ code' :: after)) : code = code' := by
  have changed : ∀ c ∈ before ++ code' :: after, c < 2 ^ k := by
    simp only [List.forall_mem_append, List.forall_mem_cons] at small ⊢
    exact ⟨small.1, small', small.2.2⟩
  have left := dvd_run pos narrow taps fits small
  have right := dvd_run pos narrow taps fits changed
  rw [same] at left
  have texts := dvd_sub left right
  -- Only the changed symbol is left of the two texts, moved up by a power of `X`.
  have moved : dividend w k start (before ++ code :: after) - poly (run w t k start
        (before ++ code' :: after)) - (dividend w k start (before ++ code' :: after) -
        poly (run w t k start (before ++ code' :: after))) =
      (poly code - poly code') * X ^ (k * after.length + w) := by
    have text : ∀ c, message k (before ++ c :: after) =
        (message k before * X ^ k + poly c) * X ^ (k * after.length) + message k after := by
      intro c
      have cons : c :: after = [c] ++ after := rfl
      rw [cons, ← List.append_assoc, message_append, message_append, message_singleton,
        List.length_singleton, Nat.mul_one]
    simp only [dividend, text, List.length_append, List.length_cons]
    ring
  rw [moved] at texts
  have difference := ((divisor_coprime (pos.trans_le narrow) lowest).pow_right).dvd_of_dvd_mul_right
    texts
  have low : (poly code - poly code').degree < (divisor w t).degree := by
    have wide : (2 : Nat) ^ k ≤ 2 ^ w := Nat.pow_le_pow_right (by decide) narrow
    have fed : code < 2 ^ k := small code (by simp)
    rw [degree_divisor taps]
    refine (degree_sub_le _ _).trans_lt (max_lt ?_ ?_)
    · exact degree_poly (fed.trans_le wide)
    · exact degree_poly (small'.trans_le wide)
  by_contra other
  refine (divisor_monic taps).not_dvd_of_degree_lt (fun zero => other ?_) low difference
  exact poly_injective (sub_eq_zero.mp zero)

end
end
end Dormitory.ShiftRegister
