import Mathlib.Data.Char

/-!
# Unicode

What `normalize`, `toLowerCase` and `toUpperCase` do to a string, as far as the
rest relies on it: to an ASCII string, what their names say.
-/

namespace Dormitory

/-- All characters are ASCII. -/
def IsAscii (s : String) : Prop := ∀ c ∈ s.toList, c.toNat < 128

instance (s : String) : Decidable (IsAscii s) :=
  List.decidableBAll (fun c : Char => c.toNat < 128) s.toList

/-- A property of the ASCII characters can be checked one by one. -/
theorem forall_ascii {P : Char → Prop} (check : ∀ n < 128, P (Char.ofNat n)) {c : Char}
    (ascii : c.toNat < 128) : P c := by
  have := check c.toNat ascii
  rwa [Char.ofNat_toNat] at this

/-- Other characters have no upper case here. -/
theorem toUpper_of_not_ascii {c : Char} (other : 128 ≤ c.toNat) : c.toUpper = c := by
  have above : ¬ c ≤ 'z' := by
    intro le
    have : c.toNat ≤ 122 := le
    omega
  exact dif_neg fun letter => above letter.2

theorem ascii_of_toUpper {c : Char} (ascii : c.toUpper.toNat < 128) : c.toNat < 128 := by
  by_contra other
  rw [toUpper_of_not_ascii (not_lt.mp other)] at ascii
  exact other ascii

/-- The Unicode tables of the engine. -/
structure Unicode where
  /-- `normalize('NFKD')`. -/
  nfkd : String → String
  toLowerCase : String → String
  toUpperCase : String → String
  nfkd_ascii : ∀ s, IsAscii s → nfkd s = s
  toLowerCase_ascii : ∀ s, IsAscii s → toLowerCase s = s.map Char.toLower
  toUpperCase_ascii : ∀ s, IsAscii s → toUpperCase s = s.map Char.toUpper

/-- Tables of the ASCII characters only. -/
def Unicode.ascii : Unicode where
  nfkd s := s
  toLowerCase s := s.map Char.toLower
  toUpperCase s := s.map Char.toUpper
  nfkd_ascii _ _ := rfl
  toLowerCase_ascii _ _ := rfl
  toUpperCase_ascii _ _ := rfl

end Dormitory
