import Dormitory.PromptPay
import Dormitory.Tlv

/-!
# The QR payload is read back

The payload of `packages/shared/src/promptpay.ts` under the EMV rule: a two-digit
tag, a two-digit decimal length, that many characters.
-/

namespace Dormitory.PromptPay

open Tlv (Reads)

/-- A decimal number, leading zeros allowed. -/
def readDigits (cs : List Char) : Option Nat :=
  if cs.all Char.isDigit then some (Nat.ofDigitChars 10 cs 0) else none

def emv : Tlv.Format Char where
  tagWidth := 2
  lengthWidth := 2
  isTag := fun tag => tag.all Char.isDigit
  readLength := readDigits
  tag_pos := by decide

@[simp] theorem emv_readLength : emv.readLength = readDigits := rfl

def field (tag value : String) : Tlv.Field Char := ⟨tag.toList, value.toList⟩

/-- Digits, a point and two digits, which together count `n` satang. -/
def TwoDecimals (text : List Char) (n : Nat) : Prop :=
  ∃ whole fraction, text = whole ++ '.' :: fraction ∧ whole ≠ [] ∧ fraction.length = 2 ∧
    readDigits (whole ++ fraction) = some n

def merchantFields (norm : NormalizedId) : List (Tlv.Field Char) :=
  [field "00" "A000000677010111", field norm.subTag norm.value]

/-- Field 54 is there exactly when an amount is. -/
def payloadFields (merchant : String) (amount : Option (Numeric 10 2)) (crc : String) :
    List (Tlv.Field Char) :=
  [field "00" "01", field "01" "11", field "29" merchant, field "53" "764"] ++
    (amount.map fun a => field "54" (storageString a.units)).toList ++
    [field "58" "TH", field "63" crc]

/-! ## Numbers in digits -/

theorem toList_padStart (width n : Nat) : (padStart width n).toList =
    List.replicate (width - (Nat.toDigits 10 n).length) '0' ++ Nat.toDigits 10 n := by
  simp [padStart]

theorem readDigits_padStart (width n : Nat) : readDigits (padStart width n).toList = some n := by
  have digits : ∀ c ∈ Nat.toDigits 10 n, c.isDigit = true := fun c hc =>
    Nat.isDigit_of_mem_toDigits (by decide) (by decide) hc
  have all : (padStart width n).toList.all Char.isDigit = true := by
    rw [toList_padStart, List.all_append, Bool.and_eq_true]
    constructor
    · rw [List.all_eq_true]
      intro c hc
      rw [(List.mem_replicate.mp hc).2]
      rfl
    · exact List.all_eq_true.mpr digits
  rw [readDigits, if_pos all, toList_padStart]
  simp [Nat.ofDigitChars_append]

/-- A padded number starts with a digit. -/
theorem padStart_head (width n : Nat) :
    ∃ d ds, (padStart width n).toList = d :: ds ∧ d.isDigit = true := by
  have read := readDigits_padStart width n
  have some : (padStart width n).toList ≠ [] := by
    rw [toList_padStart]
    exact List.append_ne_nil_of_right_ne_nil _ Nat.toDigits_ne_nil
  cases text : (padStart width n).toList with
  | nil => exact absurd text some
  | cons d ds =>
    rw [text, readDigits] at read
    have digits := (Option.ite_none_right_eq_some.mp read).1
    rw [List.all_cons, Bool.and_eq_true] at digits
    exact ⟨d, ds, rfl, digits.1⟩

theorem length_padStart {width n : Nat} (pos : 0 < width) (fits : n < 10 ^ width) :
    (padStart width n).length = width := by
  have := (Nat.length_toDigits_le_iff (b := 10) (by decide) pos).mpr fits
  rw [← String.length_toList, toList_padStart]
  simp only [List.length_append, List.length_replicate]
  omega

theorem readDigits_append {s t : List Char} {n m : Nat} (hs : readDigits s = some n)
    (ht : readDigits t = some m) : readDigits (s ++ t) = some (10 ^ t.length * n + m) := by
  simp only [readDigits, Option.ite_none_right_eq_some, Option.some.injEq] at hs ht ⊢
  obtain ⟨digits, rfl⟩ := hs
  obtain ⟨digits', rfl⟩ := ht
  rw [List.all_append, digits, digits', Nat.ofDigitChars_append,
    Nat.ofDigitChars_eq_ofDigitChars_zero]
  exact ⟨rfl, rfl⟩

theorem storageString_twoDecimals (n : Nat) : TwoDecimals (storageString n).toList n := by
  refine ⟨(padStart 1 (n / 100)).toList, (padStart 2 (n % 100)).toList, ?_, ?_, ?_, ?_⟩
  · simp [storageString]
  · rw [toList_padStart]
    simp
  · rw [String.length_toList, length_padStart (by decide) (by omega)]
  · rw [readDigits_append (readDigits_padStart _ _) (readDigits_padStart _ _),
      String.length_toList, length_padStart (by decide) (by omega)]
    congr 1
    omega

/-- A text with two decimals has one reading. -/
theorem TwoDecimals.unique {text : List Char} {n m : Nat} (hn : TwoDecimals text n)
    (hm : TwoDecimals text m) : n = m := by
  obtain ⟨whole, fraction, rfl, -, two, reads⟩ := hn
  obtain ⟨whole', fraction', same, -, two', reads'⟩ := hm
  obtain ⟨rfl, rest⟩ := List.append_inj' same (by simp [two, two'])
  obtain rfl := List.tail_eq_of_cons_eq rest
  exact Option.some.inj (reads.symm.trans reads')

theorem length_storageString {n : Nat} (fits : n < 10 ^ 10) : (storageString n).length ≤ 11 := by
  have whole : (padStart 1 (n / 100)).length ≤ 8 := by
    have := (Nat.length_toDigits_le_iff (b := 10) (n := n / 100) (k := 8) (by decide)
      (by decide)).mpr (by omega)
    rw [← String.length_toList, toList_padStart]
    simp only [List.length_append, List.length_replicate]
    have := Nat.length_toDigits_pos (b := 10) (n := n / 100)
    omega
  have fraction : (padStart 2 (n % 100)).length = 2 := length_padStart (by decide) (by omega)
  have point : ".".length = 1 := rfl
  have unsigned : ¬ ((n : Int) < 0) := by omega
  simp only [storageString, Int.natAbs_natCast, String.length_append, fraction, unsigned,
    if_false, String.length_empty, point]
  omega

/-! ## The checksum -/

theorem crcRound_lt (crc : Nat) : crcRound crc < 2 ^ 16 := by
  unfold crcRound
  split <;> exact Nat.lt_of_le_of_lt Nat.and_le_right (by decide)

theorem crcChar_lt (crc : Nat) (c : Char) : crcChar crc c < 2 ^ 16 := by
  rw [crcChar, Function.iterate_succ_apply']
  exact crcRound_lt _

theorem foldl_crcChar_lt (cs : List Char) {crc : Nat} (h : crc < 2 ^ 16) :
    cs.foldl crcChar crc < 2 ^ 16 := by
  induction cs generalizing crc with
  | nil => exact h
  | cons c cs ih => exact ih (crcChar_lt crc c)

/-- The checksum always fills its field. -/
theorem length_crc16Ccitt (input : String) : (crc16Ccitt input).length = 4 := by
  have small : input.toList.foldl crcChar 0xffff < 16 ^ 4 := foldl_crcChar_lt _ (by decide)
  have := (Nat.length_toDigits_le_iff (b := 16) (by decide) (by decide)).mpr small
  rw [← String.length_toList, crc16Ccitt]
  simp only [String.toList_ofList, List.length_append, List.length_replicate, List.length_map]
  omega

/-! ## One record -/

theorem tlv_reads (tag value : String) (two : tag.length = 2)
    (isTag : tag.toList.all Char.isDigit = true) (short : value.length < 100) :
    ∃ text, tlv tag value = .ok text ∧ Reads emv text.toList [field tag value] ∧
      text.length = value.length + 4 := by
  have len : (padStart 2 value.length).length = 2 := length_padStart (by decide) short
  refine ⟨tag ++ padStart 2 value.length ++ value, ?_, ?_, ?_⟩
  · simp [tlv, two, len]
  · rw [String.toList_append, String.toList_append]
    have reads : emv.readLength (padStart 2 value.length).toList = some value.toList.length := by
      rw [emv_readLength, readDigits_padStart, String.length_toList]
    refine Tlv.reads_one _ _ ?_ isTag ?_ reads
    · rw [String.length_toList, two]
      rfl
    · rw [String.length_toList, len]
      rfl
  · rw [String.length_append, String.length_append, two, len]
    omega

/-! ## Promptpay ids -/

/-- The three kinds of id: what each normalises to is short and has its own tag. -/
theorem normalizePromptPayId_ok {raw : String} {norm : NormalizedId}
    (h : normalizePromptPayId raw = .ok norm) :
    norm.subTag.length = 2 ∧ norm.subTag.toList.all Char.isDigit = true ∧
      norm.value.length ≤ 15 := by
  simp only [normalizePromptPayId] at h
  split at h
  · rename_i phone
    cases h
    refine ⟨(rfl : "01".length = 2), (rfl : "01".toList.all Char.isDigit = true), ?_⟩
    simp [← String.length_toList]
    omega
  · split at h
    · rename_i national
      cases h
      refine ⟨(rfl : "02".length = 2), (rfl : "02".toList.all Char.isDigit = true), ?_⟩
      simp [← String.length_toList, national]
    · split at h
      · rename_i ewallet
        cases h
        refine ⟨(rfl : "03".length = 2), (rfl : "03".toList.all Char.isDigit = true), ?_⟩
        simp [← String.length_toList, ewallet]
      · cases h

theorem normalizePromptPayId_accepts (raw : String) :
    (∃ norm, normalizePromptPayId raw = .ok norm) ↔
      ((digitsOnly raw).length = 10 ∧ (digitsOnly raw).head? = some '0') ∨
        (digitsOnly raw).length = 13 ∨ (digitsOnly raw).length = 15 := by
  simp only [normalizePromptPayId]
  split
  · rename_i phone
    exact ⟨fun _ => .inl phone, fun _ => ⟨_, rfl⟩⟩
  · split
    · rename_i national
      exact ⟨fun _ => .inr (.inl national), fun _ => ⟨_, rfl⟩⟩
    · split
      · rename_i ewallet
        exact ⟨fun _ => .inr (.inr ewallet), fun _ => ⟨_, rfl⟩⟩
      · rename_i phone national ewallet
        constructor
        · rintro ⟨norm, impossible⟩
          cases impossible
        · rintro (h | h | h)
          · exact absurd h phone
          · exact absurd h national
          · exact absurd h ewallet

/-! ## The whole payload -/

theorem merchant_reads {norm : NormalizedId} (two : norm.subTag.length = 2)
    (isTag : norm.subTag.toList.all Char.isDigit = true) (short : norm.value.length ≤ 15) :
    ∃ aid account, tlv "00" "A000000677010111" = .ok aid ∧ tlv norm.subTag norm.value =
      .ok account ∧
      Reads emv (aid ++ account).toList (merchantFields norm) ∧ (aid ++ account).length < 100 := by
  obtain ⟨aid, writesAid, readsAid, lenAid⟩ :=
    tlv_reads "00" "A000000677010111" rfl rfl (by decide)
  obtain ⟨account, writes, reads, len⟩ := tlv_reads norm.subTag norm.value two isTag (by omega)
  refine ⟨aid, account, writesAid, writes, ?_, ?_⟩
  · rw [String.toList_append]
    exact readsAid.append reads
  · have : "A000000677010111".length = 16 := by decide
    rw [String.length_append]
    omega

theorem amount_reads (amount : Option (Numeric 10 2)) (positive : ∀ a ∈ amount, 0 < a.units) :
    ∃ text, (match amount.map Numeric.toDecimal with
        | some a => tlv "54" (storageText a)
        | none => pure "") = Except.ok text ∧
      Reads emv text.toList (amount.map fun a => field "54" (storageString a.units)).toList := by
  cases amount with
  | none => exact ⟨"", rfl, .done⟩
  | some a =>
    obtain ⟨n, units⟩ := Int.eq_ofNat_of_zero_le (Int.le_of_lt (positive a rfl))
    have fits := a.fits
    have short : (storageString a.units).length ≤ 11 := by
      rw [units]
      exact length_storageString (by omega)
    obtain ⟨text, writes, reads, -⟩ :=
      tlv_reads "54" (storageString a.units) rfl rfl (by omega)
    refine ⟨text, ?_, reads⟩
    simp only [Option.map_some, Numeric.toDecimal]
    rw [show (⟨a.units, 2⟩ : Decimal) = satang a.units from rfl, storageText_satang]
    exact writes

theorem ok_bind {α β : Type} (a : α) (f : α → Except String β) : (.ok a >>= f) = f a := rfl

/-- What the generator writes for an id it accepts. -/
theorem generatePromptPayPayload_reads {raw : String} {norm : NormalizedId}
    (accepted : normalizePromptPayId raw = .ok norm) (amount : Option (Numeric 10 2))
    (positive : ∀ a ∈ amount, 0 < a.units) :
    ∃ body merchant, generatePromptPayPayload raw (amount.map Numeric.toDecimal) =
        .ok (body ++ crc16Ccitt body) ∧
      Reads emv merchant.toList (merchantFields norm) ∧
      Reads emv (body ++ crc16Ccitt body).toList
        (payloadFields merchant amount (crc16Ccitt body)) := by
  obtain ⟨two, isTag, short⟩ := normalizePromptPayId_ok accepted
  obtain ⟨aid, account, writesAid, writesAccount, readsMerchant, lenMerchant⟩ :=
    merchant_reads two isTag short
  obtain ⟨format, writesFormat, readsFormat, -⟩ :=
    tlv_reads "00" "01" rfl rfl (by decide)
  obtain ⟨method, writesMethod, readsMethod, -⟩ :=
    tlv_reads "01" "11" rfl rfl (by decide)
  obtain ⟨account29, writes29, reads29, -⟩ :=
    tlv_reads "29" (aid ++ account) rfl rfl lenMerchant
  obtain ⟨currency, writesCurrency, readsCurrency, -⟩ :=
    tlv_reads "53" currencyNumericThb rfl rfl (by decide)
  obtain ⟨amountText, writesAmount, readsAmount⟩ := amount_reads amount positive
  obtain ⟨country, writesCountry, readsCountry, -⟩ :=
    tlv_reads "58" countryCodeTh rfl rfl (by decide)
  let body := format ++ method ++ account29 ++ currency ++ amountText ++ country ++ "6304"
  refine ⟨body, aid ++ account, ?_, readsMerchant, ?_⟩
  · unfold generatePromptPayPayload
    simp only [accepted, writesAid, writesAccount, writesFormat, writesMethod, writes29,
      writesCurrency, writesCountry, ok_bind]
    cases amount with
    | none =>
      cases writesAmount
      rfl
    | some a =>
      simp only [Option.map_some] at writesAmount ⊢
      rw [writesAmount]
      rfl
  · have checksum : Reads emv ("6304".toList ++ (crc16Ccitt body).toList)
        [field "63" (crc16Ccitt body)] := by
      refine Tlv.reads_one "63".toList "04".toList rfl rfl rfl ?_
      rw [String.length_toList, length_crc16Ccitt]
      rfl
    have whole := ((((readsFormat.append readsMethod).append reads29).append readsCurrency).append
      readsAmount).append (readsCountry.append checksum)
    have texts : (body ++ crc16Ccitt body).toList =
        (format.toList ++ method.toList ++ account29.toList ++ currency.toList ++
          amountText.toList) ++ (country.toList ++
            ("6304".toList ++ (crc16Ccitt body).toList)) := by
      simp only [body, String.toList_append, List.append_assoc]
    rw [texts]
    exact whole

theorem field_inj {tag tag' value value' : String} (h : field tag value = field tag' value') :
    tag = tag' ∧ value = value' := by
  simp only [field, Tlv.Field.mk.injEq] at h
  exact ⟨String.toList_inj.mp h.1, String.toList_inj.mp h.2⟩

theorem storageString_inj {a b : Numeric 10 2} (ha : 0 < a.units) (hb : 0 < b.units)
    (h : storageString a.units = storageString b.units) : a = b := by
  obtain ⟨n, hn⟩ := Int.eq_ofNat_of_zero_le (Int.le_of_lt ha)
  obtain ⟨m, hm⟩ := Int.eq_ofNat_of_zero_le (Int.le_of_lt hb)
  rw [hn, hm] at h
  have reads := storageString_twoDecimals m
  rw [← h] at reads
  have same := (storageString_twoDecimals n).unique reads
  cases a
  cases b
  simp_all

/-- The fields show the merchant account and the amount. -/
theorem payloadFields_inj {merchant merchant' crc crc' : String}
    {amount amount' : Option (Numeric 10 2)}
    (positive : ∀ a ∈ amount, 0 < a.units) (positive' : ∀ a ∈ amount', 0 < a.units)
    (h : payloadFields merchant amount crc = payloadFields merchant' amount' crc') :
    merchant = merchant' ∧ amount = amount' := by
  have tags : ∀ {value value' : String}, field "54" value ≠ field "58" value' := fun h =>
    absurd (field_inj h).1 (by decide)
  simp only [payloadFields, List.cons_append, List.nil_append, List.cons.injEq, true_and] at h
  obtain ⟨account, fields⟩ := h
  refine ⟨(field_inj account).2, ?_⟩
  cases amount with
  | none =>
    cases amount' with
    | none => rfl
    | some b => exact absurd (List.head_eq_of_cons_eq fields).symm tags
  | some a =>
    cases amount' with
    | none => exact absurd (List.head_eq_of_cons_eq fields) tags
    | some b =>
      have same := (field_inj (List.head_eq_of_cons_eq fields)).2
      rw [storageString_inj (positive a rfl) (positive' b rfl) same]

/-- **A payload is read back.** It splits into records in one way only; they give the
id, the amount and a checksum of everything before it, so no other id or amount
has the same payload. -/
theorem generatePromptPayPayload_read_back (raw : String) (amount : Option (Numeric 10 2))
    (positive : ∀ a ∈ amount, 0 < a.units) :
    ((∃ norm, normalizePromptPayId raw = .ok norm) ↔
      ((digitsOnly raw).length = 10 ∧ (digitsOnly raw).head? = some '0') ∨
        (digitsOnly raw).length = 13 ∨ (digitsOnly raw).length = 15) ∧
    ∀ norm, normalizePromptPayId raw = .ok norm → ∃ payload body merchant,
      generatePromptPayPayload raw (amount.map Numeric.toDecimal) = .ok payload ∧
      payload = body ++ crc16Ccitt body ∧ (crc16Ccitt body).length = 4 ∧
      Tlv.parse emv payload.toList = some (payloadFields merchant amount (crc16Ccitt body)) ∧
      (∀ fields, Reads emv payload.toList fields ↔
        fields = payloadFields merchant amount (crc16Ccitt body)) ∧
      (∀ fields, Reads emv merchant.toList fields ↔ fields = merchantFields norm) ∧
      (∀ a ∈ amount, TwoDecimals (storageString a.units).toList a.units.toNat) ∧
      ∀ raw' norm' (amount' : Option (Numeric 10 2)), (∀ a ∈ amount', 0 < a.units) →
        normalizePromptPayId raw' = .ok norm' →
        generatePromptPayPayload raw' (amount'.map Numeric.toDecimal) = .ok payload →
        norm'.subTag = norm.subTag ∧ norm'.value = norm.value ∧ amount' = amount := by
  refine ⟨normalizePromptPayId_accepts raw, ?_⟩
  intro norm accepted
  obtain ⟨body, merchant, writes, account, reads⟩ :=
    generatePromptPayPayload_reads accepted amount positive
  refine ⟨body ++ crc16Ccitt body, body, merchant, writes, rfl, length_crc16Ccitt body,
    Tlv.reads_iff_parse.mp reads, reads.iff_eq, account.iff_eq, ?_, ?_⟩
  · intro a ha
    have := storageString_twoDecimals a.units.toNat
    rwa [Int.toNat_of_nonneg (Int.le_of_lt (positive a ha))] at this
  · intro raw' norm' amount' positive' accepted' writes'
    obtain ⟨body', merchant', wrote, account', reads'⟩ :=
      generatePromptPayPayload_reads accepted' amount' positive'
    rw [← Except.ok.inj (writes'.symm.trans wrote)] at reads'
    obtain ⟨rfl, rfl⟩ := payloadFields_inj positive' positive ((reads.iff_eq _).mp reads')
    have same := (account.iff_eq _).mp account'
    simp only [merchantFields, List.cons.injEq, true_and, and_true] at same
    exact ⟨(field_inj same).1, (field_inj same).2, rfl⟩

theorem generatePromptPayPayload_read_back_phone :
    ∃ payload, generatePromptPayPayload "081-234-5678" (some (satang 550000)) = .ok payload := by
  have positive : ∀ a ∈ some (⟨550000, by decide⟩ : Numeric 10 2), 0 < a.units := by
    rintro a ⟨⟩
    decide
  obtain ⟨payload, -, -, writes, -⟩ :=
    (generatePromptPayPayload_read_back "081-234-5678" _ positive).2 _ rfl
  exact ⟨payload, writes⟩

end Dormitory.PromptPay
