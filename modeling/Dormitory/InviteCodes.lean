import Dormitory.AuthService
import Dormitory.TenantInviteService
import Dormitory.Unicode

/-!
# Invite codes

`generatePlaintextCode` of `modules/tenant-invite/tenant-invite.service.ts` and
`tenantInviteCodeSchema` of `packages/shared/src/zod/tenant-invite.ts`. What the
schema makes of a typed code is the code that was drawn.
-/

namespace Dormitory.Tenancy
open TenantInviteService

def tenantInviteCodeAlphabet : List Char := "0123456789ABCDEFGHJKMNPQRSTVWXYZ".toList

/-- `randomInt(0, alphabet.length)`, once for every character. -/
abbrev CodeDraws : Type := Fin tenantInviteCodeLength → Fin tenantInviteCodeAlphabet.length

def generatePlaintextCode (draws : CodeDraws) : String :=
  String.ofList (List.ofFn fun i => tenantInviteCodeAlphabet.get (draws i))

/-- `[0-9A-HJKMNP-TV-Z]`. -/
def inviteCodeChar (c : Char) : Bool :=
  ('0' ≤ c ∧ c ≤ '9') ∨ ('A' ≤ c ∧ c ≤ 'H') ∨ c = 'J' ∨ c = 'K' ∨ c = 'M' ∨ c = 'N' ∨
    ('P' ≤ c ∧ c ≤ 'T') ∨ ('V' ≤ c ∧ c ≤ 'Z')

/-- The code that the service gets, if the schema accepts the string. -/
def tenantInviteCodeSchema (unicode : Unicode) (s : String) : Option String :=
  if utf16Length s < 8 ∨ 9 < utf16Length s then none
  else
    let code := unicode.toUpperCase (String.ofList (s.toList.filter (· ≠ '-')))
    if utf16Length code = tenantInviteCodeLength ∧ code ≠ "" ∧ code.toList.all inviteCodeChar then
      some code
    else none

/-! ## What is accepted -/

theorem inviteCodeChar_ascii {c : Char} (h : inviteCodeChar c = true) : c.toNat < 128 := by
  have bound : ∀ d e : Char, d ≤ e → d.toNat ≤ e.toNat := fun d e le => le
  simp only [inviteCodeChar, Bool.decide_or, Bool.decide_and, Bool.or_eq_true, Bool.and_eq_true,
    decide_eq_true_eq] at h
  rcases h with h | h | rfl | rfl | rfl | rfl | h | h
  · exact (bound c '9' h.2).trans_lt (by decide)
  · exact (bound c 'H' h.2).trans_lt (by decide)
  · decide
  · decide
  · decide
  · decide
  · exact (bound c 'T' h.2).trans_lt (by decide)
  · exact (bound c 'Z' h.2).trans_lt (by decide)

/-- The ranges of the pattern are the alphabet. -/
theorem inviteCodeChar_iff {c : Char} :
    inviteCodeChar c = true ↔ c ∈ tenantInviteCodeAlphabet := by
  constructor
  · intro h
    exact forall_ascii (P := fun c => inviteCodeChar c = true → c ∈ tenantInviteCodeAlphabet)
      (by decide) (inviteCodeChar_ascii h) h
  · intro mem
    have all : tenantInviteCodeAlphabet.all inviteCodeChar = true := by decide
    exact List.all_eq_true.mp all c mem

/-- An ASCII character is one code unit. -/
theorem utf16Length_ascii {s : String} (ascii : IsAscii s) : utf16Length s = s.length := by
  have units : ∀ cs : List Char, (∀ c ∈ cs, c.toNat < 128) →
      (cs.map fun c => if c.toNat < 0x10000 then 1 else 2).sum = cs.length := by
    intro cs
    induction cs with
    | nil => exact fun _ => rfl
    | cons c cs ih =>
      intro ascii
      obtain ⟨first, rest⟩ := List.forall_mem_cons.mp ascii
      rw [List.map_cons, List.sum_cons, List.length_cons, ih rest, if_pos (by omega), Nat.add_comm]
  rw [utf16Length, units s.toList ascii, String.length_toList]

theorem toUpper_hyphen {c : Char} : c.toUpper = '-' ↔ c = '-' := by
  by_cases ascii : c.toNat < 128
  · exact forall_ascii (P := fun c => c.toUpper = '-' ↔ c = '-') (by decide) ascii
  · rw [toUpper_of_not_ascii (not_lt.mp ascii)]

/-! ## The round trip -/

/-- Eight characters of the alphabet. -/
structure IsInviteCode (code : String) : Prop where
  length : code.length = tenantInviteCodeLength
  chars : ∀ c ∈ code.toList, c ∈ tenantInviteCodeAlphabet

theorem generatePlaintextCode_isInviteCode (draws : CodeDraws) :
    IsInviteCode (generatePlaintextCode draws) where
  length := by rw [generatePlaintextCode, String.length_ofList, List.length_ofFn]
  chars c mem := by
    rw [generatePlaintextCode, String.toList_ofList, List.mem_ofFn] at mem
    obtain ⟨i, rfl⟩ := mem
    exact List.get_mem _ _

/-- The strings are the same up to the case of ASCII letters. -/
def SameLetters (s t : String) : Prop := s.toList.map Char.toUpper = t.toList.map Char.toUpper

instance (s t : String) : Decidable (SameLetters s t) := inferInstanceAs (Decidable (_ = _))

theorem IsInviteCode.toUpper {code : String} (isCode : IsInviteCode code) :
    code.toList.map Char.toUpper = code.toList := by
  have upper : tenantInviteCodeAlphabet.all (fun c => c.toUpper = c) = true := by decide
  calc code.toList.map Char.toUpper = code.toList.map id :=
        List.map_congr_left fun c mem =>
          of_decide_eq_true (List.all_eq_true.mp upper c (isCode.chars c mem))
    _ = code.toList := List.map_id _

theorem IsInviteCode.filter {code : String} (isCode : IsInviteCode code) :
    code.toList.filter (· ≠ '-') = code.toList := by
  have other : tenantInviteCodeAlphabet.all (fun c => c ≠ '-') = true := by decide
  exact List.filter_eq_self.mpr fun c mem => List.all_eq_true.mp other c (isCode.chars c mem)

/-- A string that is the code once hyphens are removed and letters are raised is read as it. -/
theorem tenantInviteCodeSchema_of_letters (unicode : Unicode) {s code : String}
    (isCode : IsInviteCode code) (length : 8 ≤ s.length ∧ s.length ≤ 9)
    (letters : (s.toList.map Char.toUpper).filter (· ≠ '-') = code.toList) :
    tenantInviteCodeSchema unicode s = some code := by
  have ascii : IsAscii s := by
    intro c mem
    apply ascii_of_toUpper
    by_cases hyphen : c.toUpper = '-'
    · rw [hyphen]
      decide
    · have inCode : c.toUpper ∈ code.toList := by
        rw [← letters, List.mem_filter]
        exact ⟨List.mem_map_of_mem mem, by simpa using hyphen⟩
      exact inviteCodeChar_ascii (inviteCodeChar_iff.mpr (isCode.chars _ inCode))
  have ascii' : IsAscii (String.ofList (s.toList.filter (· ≠ '-'))) := by
    intro c mem
    rw [String.toList_ofList] at mem
    exact ascii c (List.mem_filter.mp mem).1
  have read : unicode.toUpperCase (String.ofList (s.toList.filter (· ≠ '-'))) = code := by
    rw [unicode.toUpperCase_ascii _ ascii', ← String.toList_inj, String.toList_map,
      String.toList_ofList, ← letters, List.filter_map]
    congr 1
    apply List.filter_congr
    intro c mem
    simp only [Function.comp, ne_eq, toUpper_hyphen]
  have asciiCode : IsAscii code := fun c mem =>
    inviteCodeChar_ascii (inviteCodeChar_iff.mpr (isCode.chars c mem))
  have some : code ≠ "" := by
    rintro rfl
    cases isCode.length
  have chars : code.toList.all inviteCodeChar = true :=
    List.all_eq_true.mpr fun c mem => inviteCodeChar_iff.mpr (isCode.chars c mem)
  have inBounds : ¬ (utf16Length s < 8 ∨ 9 < utf16Length s) := by
    rw [utf16Length_ascii ascii]
    omega
  rw [tenantInviteCodeSchema, if_neg inBounds, read]
  exact if_pos ⟨(utf16Length_ascii asciiCode).trans isCode.length, some, chars⟩

theorem toList_formatCodeForDisplay (code : String) : (formatCodeForDisplay code).toList =
    code.toList.take 4 ++ '-' :: code.toList.drop 4 := by
  simp [formatCodeForDisplay, slice, tenantInviteCodeLength]

theorem schema_plaintext (unicode : Unicode) {s code : String} (isCode : IsInviteCode code)
    (same : SameLetters s code) : tenantInviteCodeSchema unicode s = some code := by
  have letters : s.toList.map Char.toUpper = code.toList := same.trans isCode.toUpper
  have length := congrArg List.length letters
  rw [List.length_map, String.length_toList, String.length_toList, isCode.length,
    tenantInviteCodeLength] at length
  apply tenantInviteCodeSchema_of_letters unicode isCode (by omega)
  rw [letters, isCode.filter]

theorem schema_display (unicode : Unicode) {s code : String} (isCode : IsInviteCode code)
    (same : SameLetters s (formatCodeForDisplay code)) :
    tenantInviteCodeSchema unicode s = some code := by
  have hyphen : '-'.toUpper = '-' := by decide
  have letters : s.toList.map Char.toUpper =
      code.toList.take 4 ++ '-' :: code.toList.drop 4 := by
    rw [same, toList_formatCodeForDisplay, List.map_append, List.map_cons, List.map_take,
      List.map_drop, isCode.toUpper, hyphen]
  have length := congrArg List.length letters
  rw [List.length_map, String.length_toList, List.length_append, List.length_cons,
    List.length_take, List.length_drop, String.length_toList, isCode.length,
    tenantInviteCodeLength] at length
  apply tenantInviteCodeSchema_of_letters unicode isCode (by omega)
  rw [letters, List.filter_append, List.filter_cons_of_neg (by decide), ← List.filter_append,
    List.take_append_drop, isCode.filter]

theorem tenantInviteCodeSchema_sound {unicode : Unicode} {s code : String}
    (accepted : tenantInviteCodeSchema unicode s = some code) : IsInviteCode code := by
  unfold tenantInviteCodeSchema at accepted
  split at accepted
  · cases accepted
  · dsimp only at accepted
    split at accepted
    · rename_i valid
      cases accepted
      obtain ⟨length, -, chars⟩ := valid
      have inAlphabet := fun c mem => inviteCodeChar_iff.mp (List.all_eq_true.mp chars c mem)
      have ascii : IsAscii _ := fun c mem =>
        inviteCodeChar_ascii (List.all_eq_true.mp chars c mem)
      exact ⟨(utf16Length_ascii ascii).symm.trans length, inAlphabet⟩
    · cases accepted

/-- **Invite codes survive being typed**: a code and its display form, in any mix of cases, are
read as the code that was drawn, so that its prefix and hash are looked up; and whatever is
accepted is read as eight characters of the alphabet. -/
theorem inviteCode_roundTrip (unicode : Unicode) (sha256Hex : String → String) :
    (∀ (draws : CodeDraws) (s : String),
      SameLetters s (generatePlaintextCode draws) ∨
        SameLetters s (formatCodeForDisplay (generatePlaintextCode draws)) →
      ∃ code, tenantInviteCodeSchema unicode s = some code ∧ code = generatePlaintextCode draws ∧
        codePrefixOf code = codePrefixOf (generatePlaintextCode draws) ∧
        sha256Hex code = sha256Hex (generatePlaintextCode draws)) ∧
    ∀ s code, tenantInviteCodeSchema unicode s = some code →
      code.length = 8 ∧ ∀ c ∈ code.toList, c ∈ tenantInviteCodeAlphabet := by
  constructor
  · intro draws s same
    have isCode := generatePlaintextCode_isInviteCode draws
    rcases same with same | same
    · exact ⟨_, schema_plaintext unicode isCode same, rfl, rfl, rfl⟩
    · exact ⟨_, schema_display unicode isCode same, rfl, rfl, rfl⟩
  · intro s code accepted
    have isCode := tenantInviteCodeSchema_sound accepted
    exact ⟨isCode.length, isCode.chars⟩

/-- Seven zeros and a `Z`. -/
def lastZ : CodeDraws := fun i =>
  if i.val = 7 then ⟨31, by decide⟩ else ⟨0, by decide⟩

/-- The code is typed in lower case, with the hyphen. -/
theorem inviteCode_roundTrip_lower :
    (∃ code, tenantInviteCodeSchema .ascii "0000-000z" = some code ∧ code = "0000000Z" ∧
      codePrefixOf code = codePrefixOf "0000000Z" ∧ id code = id "0000000Z") ∧
    "0000000Z".length = 8 := by
  have drawn : generatePlaintextCode lastZ = "0000000Z" := by
    decide
  obtain ⟨read, accepted⟩ := inviteCode_roundTrip .ascii id
  have typed := read lastZ "0000-000z" (.inr (by decide))
  rw [drawn] at typed
  exact ⟨typed, (accepted "0000000Z" "0000000Z" (by decide +kernel)).1⟩

end Dormitory.Tenancy
