import Dormitory.Money
import Dormitory.Schema

/-!
# PromptPay

`packages/shared/src/promptpay.ts`: the EMVCo payload of an invoice's QR code.
The payload is ASCII, so a character is a byte.
-/

namespace Dormitory

/-- The text of a stored amount: two decimals, always. -/
def storageString (n : Int) : String :=
  (if n < 0 then "-" else "") ++ padStart 1 (n.natAbs / 100) ++ "." ++ padStart 2 (n.natAbs % 100)

/-- `toStorage` of a decimal, as that string: `toFixed` takes the sign of the decimal before it
is rounded. -/
def storageText (x : Decimal) : String :=
  (if x.coeff < 0 then "-" else "") ++ storageString (toStorage x).natAbs

theorem storageText_satang (n : Int) : storageText (satang n) = storageString n := by
  have magnitude : ¬ (n.natAbs : Int) < 0 := by omega
  rw [storageText, Decimal.toStorage_satang, storageString, storageString, if_neg magnitude,
    String.empty_append, Int.natAbs_natCast]
  simp only [String.append_assoc]
  rfl

namespace PromptPay

def currencyNumericThb : String := "764"

def countryCodeTh : String := "TH"

def tlv (tag value : String) : Except String String :=
  if tag.length ≠ 2 then .error s!"TLV tag must be 2 chars: {tag}"
  else
    let len := padStart 2 value.length
    if len.length ≠ 2 then .error s!"TLV value too long (max 99 chars): {value.length}"
    else .ok (tag ++ len ++ value)

def digitsOnly (input : String) : List Char := input.toList.filter fun c => '0' ≤ c ∧ c ≤ '9'

inductive IdKind where
  | national_id | phone | ewallet
  deriving DecidableEq, Repr

structure NormalizedId where
  kind : IdKind
  value : String
  subTag : String
  deriving DecidableEq, Repr

def normalizePromptPayId (raw : String) : Except String NormalizedId :=
  let d := digitsOnly raw
  if d.length = 10 ∧ d.head? = some '0' then
    .ok ⟨.phone, "0066" ++ String.ofList d.tail, "01"⟩
  else if d.length = 13 then .ok ⟨.national_id, String.ofList d, "02"⟩
  else if d.length = 15 then .ok ⟨.ewallet, String.ofList d, "03"⟩
  else .error s!"Invalid PromptPay ID: expected 10-digit phone (starts with 0), 13-digit national ID, or 15-digit e-wallet; got {d.length} digits"

/-- One of the eight rounds per character. -/
def crcRound (crc : Nat) : Nat :=
  if crc &&& 0x8000 ≠ 0 then ((crc <<< 1) ^^^ 0x1021) &&& 0xffff else (crc <<< 1) &&& 0xffff

def crcChar (crc : Nat) (c : Char) : Nat := crcRound^[8] (crc ^^^ (c.toNat <<< 8))

/-- CRC-16/CCITT-FALSE, four upper-case hexadecimal digits. -/
def crc16Ccitt (input : String) : String :=
  let hex := (Nat.toDigits 16 (input.toList.foldl crcChar 0xffff)).map Char.toUpper
  String.ofList (List.replicate (4 - hex.length) '0' ++ hex)

example : crc16Ccitt "123456789" = "29B1" := by decide +kernel

/-- A static QR, locked to `amount` when one is given. -/
def generatePromptPayPayload (promptPayId : String) (amount : Option Decimal) :
    Except String String := do
  let norm ← normalizePromptPayId promptPayId
  let aid ← tlv "00" "A000000677010111"
  let account ← tlv norm.subTag norm.value
  let format ← tlv "00" "01"
  let method ← tlv "01" "11"
  let merchant ← tlv "29" (aid ++ account)
  let currency ← tlv "53" currencyNumericThb
  let amountField ← match amount with
    | some a => tlv "54" (storageText a)
    | none => pure ""
  let country ← tlv "58" countryCodeTh
  let withoutCrc := format ++ method ++ merchant ++ currency ++ amountField ++ country ++ "6304"
  return withoutCrc ++ crc16Ccitt withoutCrc

end PromptPay
end Dormitory
