import Mathlib.Data.List.Basic
import Mathlib.Data.List.TakeWhile
import Mathlib.Tactic.Common

/-!
# Texts and bytes

What Node's `Buffer` makes of a text and of its bytes: `utf8` and `base64url`.
Reading is lenient in both, and reading back what was written is exact.
-/

namespace Dormitory.Buffer

/-! ## base64url -/

/-- The symbol of six bits. -/
def symbol (n : Nat) : Char :=
  if n < 26 then Char.ofNat (n + 65)
  else if n < 52 then Char.ofNat (n + 71)
  else if n < 62 then Char.ofNat (n - 4)
  else if n = 62 then '-' else '_'

/-- The six bits of a symbol of either alphabet. -/
def sixBits (c : Char) : Option Nat :=
  if 'A' ≤ c ∧ c ≤ 'Z' then some (c.toNat - 65)
  else if 'a' ≤ c ∧ c ≤ 'z' then some (c.toNat - 71)
  else if '0' ≤ c ∧ c ≤ '9' then some (c.toNat + 4)
  else if c = '-' ∨ c = '+' then some 62
  else if c = '_' ∨ c = '/' then some 63
  else none

/-- The bits of a list of bytes, by six. -/
def sextets : List UInt8 → List Nat
  | a :: b :: c :: rest =>
    a.toNat / 4 :: (a.toNat % 4 * 16 + b.toNat / 16) :: (b.toNat % 16 * 4 + c.toNat / 64) ::
      c.toNat % 64 :: sextets rest
  | [a, b] => [a.toNat / 4, a.toNat % 4 * 16 + b.toNat / 16, b.toNat % 16 * 4]
  | [a] => [a.toNat / 4, a.toNat % 4 * 16]
  | [] => []

/-- The whole bytes among the bits. -/
def octets : List Nat → List UInt8
  | w :: x :: y :: z :: rest =>
    .ofNat (w * 4 + x / 16) :: .ofNat (x % 16 * 16 + y / 4) :: .ofNat (y % 4 * 64 + z) ::
      octets rest
  | [w, x, y] => [.ofNat (w * 4 + x / 16), .ofNat (x % 16 * 16 + y / 4)]
  | [w, x] => [.ofNat (w * 4 + x / 16)]
  | _ => []

/-- `toString('base64url')`: no padding. -/
def toBase64url (bytes : List UInt8) : List Char := (sextets bytes).map symbol

/-- `Buffer.from(…, 'base64url')`: it ends at a `=`, and skips what is no symbol. -/
def fromBase64url (text : List Char) : List UInt8 :=
  octets ((text.takeWhile (· ≠ '=')).filterMap sixBits)

theorem symbol_read : ∀ n < 64, sixBits (symbol n) = some n ∧ symbol n ≠ '=' := by decide

theorem sextets_lt : ∀ (bytes : List UInt8), ∀ n ∈ sextets bytes, n < 64
  | a :: b :: c :: rest => by
    have ha := a.toNat_lt
    have hb := b.toNat_lt
    have hc := c.toNat_lt
    have ih := sextets_lt rest
    simp only [sextets, List.forall_mem_cons]
    refine ⟨?_, ?_, ?_, ?_, ih⟩ <;> omega
  | [a, b] => by
    have ha := a.toNat_lt
    have hb := b.toNat_lt
    simp only [sextets, List.forall_mem_cons, List.not_mem_nil, false_implies, implies_true,
      and_true]
    omega
  | [a] => by
    have ha := a.toNat_lt
    simp only [sextets, List.forall_mem_cons, List.not_mem_nil, false_implies, implies_true,
      and_true]
    omega
  | [] => by simp [sextets]

theorem octet (a : UInt8) {n : Nat} (same : n = a.toNat) : UInt8.ofNat n = a := by
  rw [same, UInt8.ofNat_toNat]

theorem octets_sextets : ∀ bytes : List UInt8, octets (sextets bytes) = bytes
  | a :: b :: c :: rest => by
    have ha := a.toNat_lt
    have hb := b.toNat_lt
    have hc := c.toNat_lt
    rw [sextets, octets, octets_sextets rest, octet a (by omega), octet b (by omega),
      octet c (by omega)]
  | [a, b] => by
    have ha := a.toNat_lt
    have hb := b.toNat_lt
    rw [sextets, octets, octet a (by omega), octet b (by omega)]
  | [a] => by
    have ha := a.toNat_lt
    rw [sextets, octets, octet a (by omega)]
  | [] => rfl

/-- What is written in base64url is read back. -/
theorem fromBase64url_toBase64url (bytes : List UInt8) :
    fromBase64url (toBase64url bytes) = bytes := by
  have small := sextets_lt bytes
  have whole : (toBase64url bytes).takeWhile (· ≠ '=') = toBase64url bytes := by
    apply List.takeWhile_eq_self_iff.mpr
    intro c hc
    obtain ⟨n, hn, rfl⟩ := List.mem_map.mp hc
    exact decide_eq_true (symbol_read n (small n hn)).2
  have read : (toBase64url bytes).filterMap sixBits = sextets bytes := by
    rw [toBase64url, List.filterMap_map]
    have each : ∀ n ∈ sextets bytes, (sixBits ∘ symbol) n = some n :=
      fun n hn => (symbol_read n (small n hn)).1
    rw [List.filterMap_congr each, List.filterMap_some]
  rw [fromBase64url, whole, read, octets_sextets]

/-! ## UTF-8 -/

/-- `Buffer.from(…, 'utf8')`. -/
def fromUtf8 (text : List Char) : List UInt8 := text.flatMap String.utf8EncodeChar

/-- How many bytes a first byte asks for, and the least and greatest that the
second may be. -/
def asks (b : UInt8) : Nat × UInt8 × UInt8 :=
  if 0xC2 ≤ b ∧ b ≤ 0xDF then (1, 0x80, 0xBF)
  else if b = 0xE0 then (2, 0xA0, 0xBF)
  else if b = 0xED then (2, 0x80, 0x9F)
  else if 0xE1 ≤ b ∧ b ≤ 0xEF then (2, 0x80, 0xBF)
  else if b = 0xF0 then (3, 0x90, 0xBF)
  else if b = 0xF4 then (3, 0x80, 0x8F)
  else if 0xF1 ≤ b ∧ b ≤ 0xF3 then (3, 0x80, 0xBF)
  else (0, 0x80, 0xBF)

/-- How many of the bytes after a first byte go with it, though not to a character. -/
def broken (b : UInt8) : List UInt8 → Nat
  | [] => 0
  | c :: cs =>
    let (more, low, high) := asks b
    if 0 < more ∧ low ≤ c ∧ c ≤ high then
      1 + ((cs.take (more - 1)).takeWhile fun x => 0x80 ≤ x ∧ x ≤ 0xBF).length
    else 0

/-- `toString('utf8')`: bytes that are no character are replaced by U+FFFD. -/
def toUtf8 : List UInt8 → List Char
  | [] => []
  | b :: bs =>
    match (b :: bs).toByteArray.utf8DecodeChar? 0 with
    | some c => c :: toUtf8 (bs.drop (c.utf8Size - 1))
    | none => Char.ofNat 0xFFFD :: toUtf8 (bs.drop (broken b bs))
termination_by bytes => bytes.length
decreasing_by all_goals simp only [List.length_drop, List.length_cons]; omega

/-- What is written in UTF-8 is read back. -/
theorem toUtf8_fromUtf8 (text : List Char) : toUtf8 (fromUtf8 text) = text := by
  induction text with
  | nil => simp [fromUtf8, toUtf8]
  | cons c cs ih =>
    have size := String.length_utf8EncodeChar c
    have pos := c.utf8Size_pos
    cases encoded : String.utf8EncodeChar c with
    | nil =>
      rw [encoded, List.length_nil] at size
      omega
    | cons b bs =>
      have first : (b :: (bs ++ fromUtf8 cs)).toByteArray.utf8DecodeChar? 0 = some c := by
        rw [← List.cons_append, ← encoded, List.toByteArray_append]
        exact ByteArray.utf8DecodeChar?_utf8EncodeChar_append
      have rest : (bs ++ fromUtf8 cs).drop (c.utf8Size - 1) = fromUtf8 cs := by
        rw [encoded, List.length_cons] at size
        exact List.drop_left' (by omega)
      have split : fromUtf8 (c :: cs) = b :: (bs ++ fromUtf8 cs) := by
        rw [fromUtf8, List.flatMap_cons, encoded]
        rfl
      rw [split, toUtf8, first]
      simp only [rest, ih]

end Dormitory.Buffer
