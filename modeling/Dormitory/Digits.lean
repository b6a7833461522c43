import Mathlib.Data.List.Lex
import Mathlib.Data.List.Basic
import Mathlib.Data.List.DropRight
import Mathlib.Data.List.Induction
import Mathlib.Tactic.Ring
import Mathlib.Tactic.Common

/-!
# Digits of a fixed width

The last `k` digits of a number. Padding to the width gives them, they tell the
number, and as texts they are in its order.
-/

namespace Dormitory

/-- The last `k` digits of `n` in base `b`. -/
def lastDigits (b : Nat) : Nat → Nat → List Char
  | 0, _ => []
  | k + 1, n => lastDigits b k (n / b) ++ [Nat.digitChar (n % b)]

section
variable {b k : Nat}

@[simp] theorem length_lastDigits (b k n : Nat) : (lastDigits b k n).length = k := by
  induction k generalizing n with
  | zero => rfl
  | succ k ih => rw [lastDigits, List.length_append, ih, List.length_singleton]

theorem lastDigits_zero (b k : Nat) : lastDigits b k 0 = List.replicate k '0' := by
  induction k with
  | zero => rfl
  | succ k ih =>
    rw [lastDigits, Nat.zero_div, ih, Nat.zero_mod, List.replicate_succ']
    rfl

/-- A number is padded with zeros to its last digits. -/
theorem padded_eq (base : 1 < b) (pos : 0 < k) {n : Nat} (fits : n < b ^ k) :
    List.replicate (k - (Nat.toDigits b n).length) '0' ++ Nat.toDigits b n = lastDigits b k n := by
  obtain ⟨k, rfl⟩ := Nat.exists_eq_add_one_of_ne_zero (Nat.ne_of_gt pos)
  induction k generalizing n with
  | zero =>
    rw [Nat.zero_add, Nat.pow_one] at fits
    rw [Nat.toDigits_of_lt_base fits, lastDigits, Nat.mod_eq_of_lt fits]
    rfl
  | succ k ih =>
    rcases Nat.lt_or_ge n b with low | high
    · rw [Nat.toDigits_of_lt_base low, lastDigits, Nat.div_eq_of_lt low, Nat.mod_eq_of_lt low,
        lastDigits_zero]
      rfl
    · have rest : n / b < b ^ (k + 1) := Nat.div_lt_of_lt_mul (by rwa [Nat.pow_succ'] at fits)
      rw [Nat.toDigits_of_base_le base high, lastDigits, ← ih (Nat.succ_pos k) rest,
        List.length_append, List.length_singleton, List.append_assoc, Nat.add_sub_add_right]

/-- Texts of one width are compared at the first difference. -/
theorem append_lt_append_iff {l l' r r' : List Char} (same : l.length = l'.length) :
    l ++ r < l' ++ r' ↔ l < l' ∨ l = l' ∧ r < r' := by
  induction l generalizing l' with
  | nil =>
    obtain rfl : l' = [] := List.length_eq_zero_iff.mp same.symm
    simp
  | cons c l ih =>
    cases l' with
    | nil => cases same
    | cons c' l' =>
      simp only [List.cons_append, List.cons_lt_cons_iff, ih (Nat.succ.inj same), List.cons.injEq]
      grind

theorem digitChar_inj (hex : b ≤ 16) {d e : Nat} (hd : d < b) (he : e < b)
    (h : Nat.digitChar d = Nat.digitChar e) : d = e := by
  have table : ∀ d < 16, ∀ e < 16, Nat.digitChar d = Nat.digitChar e → d = e := by decide
  exact table d (by omega) e (by omega) h

/-- The digits tell the number. -/
theorem lastDigits_inj (hex : b ≤ 16) {m n : Nat} (hm : m < b ^ k) (hn : n < b ^ k)
    (h : lastDigits b k m = lastDigits b k n) : m = n := by
  induction k generalizing m n with
  | zero =>
    rw [Nat.pow_zero] at hm hn
    omega
  | succ k ih =>
    rw [Nat.pow_succ'] at hm hn
    have pos : 0 < b := Nat.pos_of_mul_pos_right (Nat.zero_lt_of_lt hm)
    obtain ⟨high, low⟩ := List.append_inj h (by simp)
    have quotient := ih (Nat.div_lt_of_lt_mul hm) (Nat.div_lt_of_lt_mul hn) high
    have remainder := digitChar_inj hex (Nat.mod_lt m pos) (Nat.mod_lt n pos)
      (List.head_eq_of_cons_eq low)
    rw [← Nat.div_add_mod m b, ← Nat.div_add_mod n b, quotient, remainder]

theorem digitChar_lt (decimal : b ≤ 10) {d e : Nat} (hd : d < b) (he : e < b) :
    Nat.digitChar d < Nat.digitChar e ↔ d < e := by
  have table : ∀ d < 10, ∀ e < 10, (Nat.digitChar d < Nat.digitChar e ↔ d < e) := by decide
  exact table d (by omega) e (by omega)

/-- **Digits of one width are in the order of their numbers.** -/
theorem lastDigits_lt_iff (decimal : b ≤ 10) {m n : Nat} (hm : m < b ^ k) (hn : n < b ^ k) :
    lastDigits b k m < lastDigits b k n ↔ m < n := by
  induction k generalizing m n with
  | zero =>
    rw [Nat.pow_zero] at hm hn
    simp only [lastDigits, List.lt_irrefl, false_iff]
    omega
  | succ k ih =>
    rw [Nat.pow_succ'] at hm hn
    have pos : 0 < b := Nat.pos_of_mul_pos_right (Nat.zero_lt_of_lt hm)
    have high := ih (Nat.div_lt_of_lt_mul hm) (Nat.div_lt_of_lt_mul hn)
    have equal : lastDigits b k (m / b) = lastDigits b k (n / b) ↔ m / b = n / b :=
      ⟨lastDigits_inj (by omega) (Nat.div_lt_of_lt_mul hm) (Nat.div_lt_of_lt_mul hn),
        fun same => same ▸ rfl⟩
    have low := digitChar_lt decimal (Nat.mod_lt m pos) (Nat.mod_lt n pos)
    rw [lastDigits, lastDigits, append_lt_append_iff (by simp), high, equal]
    simp only [List.cons_lt_cons_iff, low, List.lt_irrefl, and_false, or_false]
    have split := Nat.div_add_mod m b
    have split' := Nat.div_add_mod n b
    constructor
    · rintro (less | ⟨same, less⟩)
      · by_contra notLess
        exact absurd less (Nat.not_lt.mpr (Nat.div_le_div_right (Nat.not_lt.mp notLess)))
      · rw [same] at split
        omega
    · intro less
      rcases Nat.lt_or_ge (m / b) (n / b) with fewer | more
      · exact .inl fewer
      · have same := Nat.le_antisymm (Nat.div_le_div_right (Nat.le_of_lt less)) more
        refine .inr ⟨same, ?_⟩
        rw [same] at split
        omega

end

/-! ## Decimal texts -/

theorem digitChar_of_isDigit {c : Char} (h : c.isDigit = true) :
    c.toNat - 48 < 10 ∧ Nat.digitChar (c.toNat - 48) = c := by
  have table : ∀ d < 10, Nat.digitChar d = Char.ofNat (d + 48) := by decide
  simp only [Char.isDigit, Bool.and_eq_true, decide_eq_true_eq] at h
  have low : 48 ≤ c.toNat := h.1
  have high : c.toNat ≤ 57 := h.2
  rw [table _ (by omega), Nat.sub_add_cancel low, Char.ofNat_toNat]
  exact ⟨by omega, rfl⟩

theorem lastDigits_digits (k n : Nat) : ∀ c ∈ lastDigits 10 k n, c.isDigit = true := by
  induction k generalizing n with
  | zero => simp [lastDigits]
  | succ k ih =>
    have digit : ∀ d < 10, (Nat.digitChar d).isDigit = true := by decide
    intro c hc
    rcases List.mem_append.mp hc with high | low
    · exact ih _ c high
    · rw [List.mem_singleton.mp low]
      exact digit _ (Nat.mod_lt n (by decide))

theorem ofDigitChars_lt {cs : List Char} (digits : cs.all Char.isDigit) (n : Nat) :
    Nat.ofDigitChars 10 cs n < (n + 1) * 10 ^ cs.length := by
  induction cs generalizing n with
  | nil => simp
  | cons c cs ih =>
    simp only [List.all_cons, Bool.and_eq_true] at digits
    obtain ⟨digit, digits⟩ := digits
    have small : c.toNat - '0'.toNat < 10 := by
      simp only [Char.isDigit, Bool.and_eq_true, decide_eq_true_eq] at digit
      have high : c.toNat ≤ 57 := digit.2
      have zero : '0'.toNat = 48 := rfl
      omega
    have rest := ih digits (10 * n + (c.toNat - '0'.toNat))
    rw [Nat.ofDigitChars_cons]
    calc Nat.ofDigitChars 10 cs (10 * n + (c.toNat - '0'.toNat))
        < (10 * n + (c.toNat - '0'.toNat) + 1) * 10 ^ cs.length := rest
      _ ≤ (10 * (n + 1)) * 10 ^ cs.length := Nat.mul_le_mul_right _ (by omega)
      _ = (n + 1) * 10 ^ (c :: cs).length := by
        rw [List.length_cons, Nat.pow_succ]
        ring

/-- The digits of a number are read back. -/
theorem ofDigitChars_lastDigits {k n : Nat} (pos : 0 < k) (fits : n < 10 ^ k) :
    Nat.ofDigitChars 10 (lastDigits 10 k n) 0 = n := by
  rw [← padded_eq (by decide) pos fits]
  simp [Nat.ofDigitChars_append]

/-- Digits are those of their number. -/
theorem lastDigits_ofDigitChars {cs : List Char} (digits : ∀ c ∈ cs, c.isDigit = true) :
    lastDigits 10 cs.length (Nat.ofDigitChars 10 cs 0) = cs := by
  induction cs using List.reverseRecOn with
  | nil => rfl
  | append_singleton cs c ih =>
    rw [List.forall_mem_append] at digits
    obtain ⟨small, digit⟩ := digitChar_of_isDigit (digits.2 c List.mem_cons_self)
    have zero : '0'.toNat = 48 := rfl
    rw [List.length_append, List.length_singleton, lastDigits, Nat.ofDigitChars_append,
      Nat.ofDigitChars_cons, Nat.ofDigitChars_nil, zero, Nat.mul_add_div (by decide),
      Nat.div_eq_of_lt small, Nat.add_zero, ih digits.1, Nat.mul_add_mod, Nat.mod_eq_of_lt small,
      digit]

/-! ## Numbers as JavaScript writes them -/

theorem toDigits_inj {b m n : Nat} (base : 1 < b) (hex : b ≤ 16)
    (h : Nat.toDigits b m = Nat.toDigits b n) : m = n := by
  have fits : ∀ x ≤ m + n, x < b ^ (m + n + 1) := fun x small =>
    (Nat.lt_of_le_of_lt small (Nat.lt_succ_self _)).trans (Nat.lt_pow_self base)
  have hm := fits m (Nat.le_add_right m n)
  have hn := fits n (Nat.le_add_left n m)
  refine lastDigits_inj hex hm hn ?_
  rw [← padded_eq base (Nat.succ_pos _) hm, ← padded_eq base (Nat.succ_pos _) hn, h]

theorem mem_lastDigits {b k n : Nat} (pos : 0 < b) {c : Char} (h : c ∈ lastDigits b k n) :
    ∃ d < b, c = Nat.digitChar d := by
  induction k generalizing n with
  | zero => cases h
  | succ k ih =>
    rcases List.mem_append.mp h with high | low
    · exact ih high
    · exact ⟨n % b, Nat.mod_lt n pos, List.mem_singleton.mp low⟩

theorem mem_toDigits {b n : Nat} (base : 1 < b) {c : Char} (h : c ∈ Nat.toDigits b n) :
    ∃ d < b, c = Nat.digitChar d := by
  have fits : n < b ^ (n + 1) := (Nat.lt_succ_self n).trans (Nat.lt_pow_self base)
  refine mem_lastDigits (k := n + 1) (n := n) (Nat.zero_lt_of_lt base) ?_
  rw [← padded_eq base (Nat.succ_pos n) fits]
  exact List.mem_append_right _ h

/-- The text up to the first `c` and the text after it. -/
theorem append_cons_inj {α : Type} {c : α} {l l' r r' : List α} (before : c ∉ l) (before' : c ∉ l')
    (h : l ++ c :: r = l' ++ c :: r') : l = l' ∧ r = r' := by
  induction l generalizing l' with
  | nil =>
    cases l' with
    | nil => exact ⟨rfl, List.tail_eq_of_cons_eq h⟩
    | cons d l' => exact absurd (List.mem_cons.mpr (.inl (List.head_eq_of_cons_eq h))) before'
  | cons d l ih =>
    cases l' with
    | nil => exact absurd (List.mem_cons.mpr (.inl (List.head_eq_of_cons_eq h).symm)) before
    | cons d' l' =>
      obtain ⟨rfl, rest⟩ := List.cons.inj h
      obtain ⟨rfl, after⟩ := ih (fun mem => before (.tail _ mem)) (fun mem => before' (.tail _ mem))
        rest
      exact ⟨rfl, after⟩

/-- A point after the first digit, if more follow. -/
def withPoint : List Char → List Char
  | d :: e :: fraction => d :: '.' :: e :: fraction
  | short => short

/-- The digits of a number with an exponent. -/
def scientific (digits : List Char) : List Char :=
  withPoint (digits.rdropWhile (· = '0')) ++ 'e' :: '+' :: Nat.toDigits 10 (digits.length - 1)

/-- The shortest decimal of a number; from `10 ^ 21` on it has an exponent. -/
def numberText (n : Nat) : String :=
  if n < 10 ^ 21 then toString n else String.ofList (scientific (Nat.toDigits 10 n))

theorem withPoint_inj {l l' : List Char} (h : withPoint l = withPoint l') : l = l' := by
  rcases l with - | ⟨d, - | ⟨e, l⟩⟩ <;> rcases l' with - | ⟨d', - | ⟨e', l'⟩⟩ <;>
    simp_all [withPoint]

theorem mem_withPoint {c : Char} {l : List Char} (h : c ∈ withPoint l) : c ∈ l ∨ c = '.' := by
  rcases l with - | ⟨d, - | ⟨e, l⟩⟩ <;> simp_all [withPoint]
  tauto

theorem mem_scientific {c : Char} {l : List Char} (digits : ∀ d ∈ l, d.isDigit = true)
    (h : c ∈ scientific l) : c.isDigit = true ∨ c = '.' ∨ c = 'e' ∨ c = '+' := by
  rcases List.mem_append.mp h with mantissa | exponent
  · rcases mem_withPoint mantissa with digit | point
    · exact .inl (digits c ((List.rdropWhile_prefix _ _).subset digit))
    · exact .inr (.inl point)
  · simp only [List.mem_cons] at exponent
    rcases exponent with e | plus | digit
    · exact .inr (.inr (.inl e))
    · exact .inr (.inr (.inr plus))
    · exact .inl (Nat.isDigit_of_mem_toDigits (by decide) (by decide) digit)

/-- The last zeros are told by the width. -/
theorem rdropWhile_zeros (l : List Char) : l.rdropWhile (· = '0') ++
    List.replicate (l.length - (l.rdropWhile (· = '0')).length) '0' = l := by
  have parts := List.rdropWhile_append_rtakeWhile (p := fun c : Char => c = '0') (l := l)
  have zeros : l.rtakeWhile (· = '0') =
      List.replicate (l.rtakeWhile (· = '0')).length '0' :=
    List.eq_replicate_iff.mpr ⟨rfl, fun c mem => by simpa using List.mem_rtakeWhile_imp mem⟩
  have width := congrArg List.length parts
  rw [List.length_append] at width
  rw [← width, Nat.add_sub_cancel_left, ← zeros]
  exact parts

theorem scientific_inj {l l' : List Char} (some : l ≠ []) (some' : l' ≠ [])
    (digits : ∀ d ∈ l, d.isDigit = true) (digits' : ∀ d ∈ l', d.isDigit = true)
    (h : scientific l = scientific l') : l = l' := by
  have plain : ∀ l : List Char, (∀ d ∈ l, d.isDigit = true) →
      'e' ∉ withPoint (l.rdropWhile (· = '0')) := by
    intro l digits mem
    rcases mem_withPoint mem with digit | point
    · exact absurd (digits _ ((List.rdropWhile_prefix _ _).subset digit)) (by decide)
    · exact absurd point (by decide)
  obtain ⟨mantissa, exponent⟩ := append_cons_inj (plain l digits) (plain l' digits') h
  have mantissa := withPoint_inj mantissa
  have width := toDigits_inj (by decide) (by decide) (List.tail_eq_of_cons_eq exponent)
  have pos := List.length_pos_of_ne_nil some
  have pos' := List.length_pos_of_ne_nil some'
  have length : l.length = l'.length := by omega
  rw [← rdropWhile_zeros l, ← rdropWhile_zeros l', mantissa, length]

theorem numberText_chars (n : Nat) :
    ∀ c ∈ (numberText n).toList, c.isDigit = true ∨ c = '.' ∨ c = 'e' ∨ c = '+' := by
  have digits : ∀ c ∈ Nat.toDigits 10 n, c.isDigit = true := fun c =>
    Nat.isDigit_of_mem_toDigits (by decide) (by decide)
  intro c mem
  rw [numberText] at mem
  split at mem
  · rw [Nat.toString_eq_ofList_toDigits, String.toList_ofList] at mem
    exact .inl (digits c mem)
  · rw [String.toList_ofList] at mem
    exact mem_scientific digits mem

/-- A number is told by its text. -/
theorem numberText_inj {m n : Nat} (h : numberText m = numberText n) : m = n := by
  have digits : ∀ n, ∀ c ∈ Nat.toDigits 10 n, c.isDigit = true := fun n c =>
    Nat.isDigit_of_mem_toDigits (by decide) (by decide)
  have apart : ∀ m n : Nat, toString m ≠ String.ofList (scientific (Nat.toDigits 10 n)) := by
    intro m n same
    have e : 'e' ∈ Nat.toDigits 10 m := by
      rw [Nat.toString_eq_ofList_toDigits, String.ofList_inj] at same
      rw [same]
      exact List.mem_append_right _ List.mem_cons_self
    exact absurd (digits m _ e) (by decide)
  unfold numberText at h
  split at h <;> split at h
  · rw [Nat.toString_eq_ofList_toDigits, Nat.toString_eq_ofList_toDigits, String.ofList_inj] at h
    exact toDigits_inj (by decide) (by decide) h
  · exact absurd h (apart m n)
  · exact absurd h.symm (apart n m)
  · have same := scientific_inj Nat.toDigits_ne_nil Nat.toDigits_ne_nil (digits m) (digits n)
      (String.ofList_inj.mp h)
    exact toDigits_inj (by decide) (by decide) same

end Dormitory
