import Dormitory.Digits
import Dormitory.QrPayload
import Dormitory.ShiftRegister
import Dormitory.Unicode

/-!
# The checksum of a payload

`crc16Ccitt` is a shift register with the taps 0x1021: its digits are the
remainder of the text by `X ^ 16 + X ^ 12 + X ^ 5 + 1`, and one changed
character changes them.
-/

namespace Dormitory.PromptPay

open Polynomial ShiftRegister

/-- The polynomial of `0x1021`, with the `x ^ 16` that the shift drops. -/
noncomputable def generator : (ZMod 2)[X] := X ^ 16 + X ^ 12 + X ^ 5 + 1

/-- The codes of the characters. -/
def codes (s : String) : List Nat := s.toList.map Char.toNat

/-- Four upper-case hexadecimal digits. -/
def hex4 (n : Nat) : String := String.ofList ((lastDigits 16 4 n).map Char.toUpper)

/-! ## The register -/

theorem divisor_eq : divisor 16 0x1021 = generator := by
  have taps : 0x1021 = 2 ^ 12 ^^^ 2 ^ 5 ^^^ 2 ^ 0 := by decide
  rw [divisor, taps, poly_xor, poly_xor, poly_two_pow, poly_two_pow, poly_two_pow, generator]
  ring

theorem and_two_pow_ne_zero (n k : Nat) : n &&& 2 ^ k ≠ 0 ↔ n.testBit k = true := by
  have bit : (n &&& 2 ^ k).testBit k = n.testBit k := by simp [Nat.testBit_and]
  constructor
  · intro some
    obtain ⟨i, set⟩ := Nat.exists_testBit_of_ne_zero some
    rw [Nat.testBit_and, Nat.testBit_two_pow] at set
    simp only [Bool.and_eq_true, decide_eq_true_eq] at set
    exact set.2 ▸ set.1
  · intro set none
    rw [none, Nat.zero_testBit] at bit
    exact absurd (bit.trans set) (by decide)

theorem crcRound_eq (crc : Nat) : crcRound crc = shift 16 0x1021 crc := by
  have mask : ∀ n : Nat, n &&& 0xffff = n % 2 ^ 16 := fun n => Nat.and_two_pow_sub_one_eq_mod n 16
  have high : crc &&& 0x8000 ≠ 0 ↔ crc.testBit (16 - 1) = true := and_two_pow_ne_zero crc 15
  by_cases out : crc.testBit (16 - 1) = true
  · rw [crcRound, shift, if_pos (high.mpr out), if_pos out, mask]
  · rw [crcRound, shift, if_neg fun set => out (high.mp set), if_neg out, mask]

theorem crcChar_eq (crc : Nat) (c : Char) : crcChar crc c = feed 16 0x1021 8 crc c.toNat := by
  rw [crcChar, feed, funext crcRound_eq]

theorem foldl_crcChar (cs : List Char) (crc : Nat) :
    cs.foldl crcChar crc = run 16 0x1021 8 crc (cs.map Char.toNat) := by
  rw [run, List.foldl_map]
  congr 1
  funext crc c
  exact crcChar_eq crc c

/-! ## Its digits -/

theorem crc16Ccitt_eq (s : String) : crc16Ccitt s = hex4 (run 16 0x1021 8 0xffff (codes s)) := by
  have small : run 16 0x1021 8 0xffff (codes s) < 16 ^ 4 := run_lt (by decide) (by decide) _
  have zero : '0'.toUpper = '0' := by decide
  rw [crc16Ccitt, foldl_crcChar, ← codes, hex4, ← padded_eq (by decide) (by decide) small,
    List.map_append, List.map_replicate, zero, List.length_map]

theorem hex4_inj {m n : Nat} (hm : m < 2 ^ 16) (hn : n < 2 ^ 16) (h : hex4 m = hex4 n) :
    m = n := by
  have upper : ∀ d < 16, ∀ e < 16,
      (Nat.digitChar d).toUpper = (Nat.digitChar e).toUpper → d = e := by decide
  have same := String.ofList_injective h
  simp only [lastDigits, List.map_cons, List.map_nil, List.nil_append,
    List.cons_append, List.cons.injEq, and_true] at same
  obtain ⟨first, second, third, fourth⟩ := same
  have := upper _ (Nat.mod_lt _ (by decide)) _ (Nat.mod_lt _ (by decide)) first
  have := upper _ (Nat.mod_lt _ (by decide)) _ (Nat.mod_lt _ (by decide)) second
  have := upper _ (Nat.mod_lt _ (by decide)) _ (Nat.mod_lt _ (by decide)) third
  have := upper _ (Nat.mod_lt _ (by decide)) _ (Nat.mod_lt _ (by decide)) fourth
  omega

theorem codes_lt {s : String} (ascii : IsAscii s) : ∀ code ∈ codes s, code < 2 ^ 8 := by
  rintro code mem
  obtain ⟨c, hc, rfl⟩ := List.mem_map.mp mem
  have := ascii c hc
  omega

/-- The register within a text: after the characters `cs`, and `b` rounds of the next one. -/
def register (cs : List Char) (c : Char) (b : Nat) : Nat :=
  crcRound^[b] (cs.foldl crcChar 0xffff ^^^ (c.toNat <<< 8))

theorem register_lt (cs : List Char) (c : Char) {b : Nat} (pos : 0 < b) :
    register cs c b < 2 ^ 16 := by
  obtain ⟨b, rfl⟩ := Nat.exists_eq_add_one_of_ne_zero (Nat.ne_of_gt pos)
  rw [register, Function.iterate_succ_apply']
  exact crcRound_lt _

theorem crc16Ccitt_remainder {s : String} (ascii : IsAscii s) :
    ∃ r < 2 ^ 16, crc16Ccitt s = hex4 r ∧
      poly r = (poly 0xffff * X ^ (8 * s.length) + message 8 (codes s) * X ^ 16) %ₘ generator := by
  refine ⟨_, run_lt (by decide) (by decide) _, crc16Ccitt_eq s, ?_⟩
  rw [run_remainder (by decide) (by decide) (by decide) (by decide) (codes_lt ascii),
    divisor_eq, dividend, codes, List.length_map, String.length_toList]

theorem crc16Ccitt_changed {before after : List Char} {c c' : Char}
    (ascii : IsAscii (String.ofList (before ++ c :: after))) (ascii' : c'.toNat < 128)
    (same : crc16Ccitt (String.ofList (before ++ c :: after)) =
      crc16Ccitt (String.ofList (before ++ c' :: after))) : c = c' := by
  have text : ∀ d, codes (String.ofList (before ++ d :: after)) =
      before.map Char.toNat ++ d.toNat :: after.map Char.toNat := by
    intro d
    rw [codes, String.toList_ofList, List.map_append, List.map_cons]
  have small := codes_lt ascii
  rw [crc16Ccitt_eq, crc16Ccitt_eq] at same
  have registers := hex4_inj (run_lt (by decide) (by decide) _) (run_lt (by decide) (by decide) _)
    same
  rw [text] at small
  rw [text, text] at registers
  have code := run_changed (by decide) (by decide) (by decide) (by decide) (by decide) small
    (show c'.toNat < 2 ^ 8 by omega) registers
  rw [← Char.ofNat_toNat c, code, Char.ofNat_toNat]

/-- **`crc16Ccitt` is CRC-16/CCITT-FALSE.** The digits of an ASCII text are those of the remainder
of its bits, behind the initial value and with sixteen zeros after them; the
register stays within 16 bits; and two texts that differ in one character have
different digits. -/
theorem crc16Ccitt_is_ccitt_false :
    (∀ s : String, IsAscii s → ∃ r < 2 ^ 16, crc16Ccitt s = hex4 r ∧
      poly r = (poly 0xffff * X ^ (8 * s.length) + message 8 (codes s) * X ^ 16) %ₘ generator) ∧
    (∀ cs c b, 0 < b → register cs c b < 2 ^ 16) ∧
    ∀ before c c' after, IsAscii (String.ofList (before ++ c :: after)) → c'.toNat < 128 → c ≠ c' →
      crc16Ccitt (String.ofList (before ++ c :: after)) ≠
        crc16Ccitt (String.ofList (before ++ c' :: after)) := by
  refine ⟨fun s ascii => crc16Ccitt_remainder ascii, fun cs c b pos => register_lt cs c pos, ?_⟩
  intro before c c' after ascii ascii' other same
  exact other (crc16Ccitt_changed ascii ascii' same)

theorem crc16Ccitt_is_ccitt_false_payload :
    (∃ r < 2 ^ 16, crc16Ccitt "0002016304" = hex4 r ∧
      poly r = (poly 0xffff * X ^ 80 + message 8 (codes "0002016304") * X ^ 16) %ₘ generator) ∧
    register ['0', '0'] '0' 8 < 2 ^ 16 ∧
    crc16Ccitt (String.ofList ("0002".toList ++ '0' :: "16304".toList)) ≠
      crc16Ccitt (String.ofList ("0002".toList ++ '1' :: "16304".toList)) := by
  obtain ⟨remainder, within, changed⟩ := crc16Ccitt_is_ccitt_false
  exact ⟨remainder "0002016304" (by decide), within _ _ 8 (by decide),
    changed _ '0' '1' _ (by decide) (by decide) (by decide)⟩

end Dormitory.PromptPay
