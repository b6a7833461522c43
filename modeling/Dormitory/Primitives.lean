import Dormitory.Money

/-!
# Decimals of the requests

The decimal schemas of `packages/shared/src/zod/primitives.ts`: the texts that they
accept, each with the number that it is.
-/

namespace Dormitory

/-- What may follow the digits before the point: nothing, or up to `fraction` decimals. -/
def fractionDigits (fraction : Nat) : List Char → Option (List Char)
  | [] => some []
  | c :: cs =>
    if c = '.' ∧ cs.all Char.isDigit ∧ 1 ≤ cs.length ∧ cs.length ≤ fraction then some cs else none

/-- `/^-?\d{1,whole}(?:\.\d{1,fraction})?$/`, and the number that the text is. -/
def decimalFormat (whole fraction : Nat) (text : List Char) : Option Decimal :=
  let negative := text.head? = some '-'
  let unsigned := if negative then text.drop 1 else text
  let digits := unsigned.takeWhile Char.isDigit
  (fractionDigits fraction (unsigned.dropWhile Char.isDigit)).bind fun decimals =>
    let coeff : Int := Nat.ofDigitChars 10 (digits ++ decimals) 0
    if 1 ≤ digits.length ∧ digits.length ≤ whole then
      some ⟨if negative then -coeff else coeff, decimals.length⟩
    else none

def moneySchema (s : String) : Option Decimal :=
  (decimalFormat 8 2 s.toList).filter fun _ => s ≠ "-0" ∧ s ≠ "-0.00"

/-- `/^-0\.0+$/`. -/
def negativeZeros : List Char → Bool
  | '-' :: '0' :: '.' :: zeros => zeros ≠ [] ∧ zeros.all (· = '0')
  | _ => false

def rateSchema (s : String) : Option Decimal :=
  (decimalFormat 6 4 s.toList).filter fun _ => s ≠ "-0" ∧ ¬ negativeZeros s.toList

def meterValueSchema (s : String) : Option Decimal :=
  (decimalFormat 10 2 s.toList).filter fun _ => s ≠ "-0" ∧ s ≠ "-0.00"

end Dormitory
