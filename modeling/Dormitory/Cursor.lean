import Dormitory.Buffer
import Dormitory.Calendar
import Dormitory.Json
import Dormitory.Prisma
import Dormitory.QrPayload

/-!
# Cursors

`common/util/cursor.util.ts`, and the reading of dates that it relies on. A date
in the format of `toISOString` is read here; what the engine makes of any other
text is a parameter.
-/

namespace Dormitory
open PromptPay

/-! ## Dates -/

/-- The last millisecond of a `Date`, and with a minus the first. -/
def maxTime : Nat := 8640000000000000

/-- What a `Date` that is valid can be. -/
abbrev DateTime := { t : Instant // t.natAbs ≤ maxTime }

/-- A number of so many digits. -/
def takeNumber (width : Nat) (cs : List Char) : Option (Nat × List Char) :=
  if (cs.take width).length = width then
    (readDigits (cs.take width)).map fun n => (n, cs.drop width)
  else none

/-- A year of four digits, or a sign and six of them. There is no year -000000. -/
def takeYear (cs : List Char) : Option (Int × List Char) :=
  match Json.expect '+' cs, Json.expect '-' cs with
  | some cs, _ => (takeNumber 6 cs).map fun (n, rest) => (n, rest)
  | none, some cs => (takeNumber 6 cs).bind fun (n, rest) =>
    if n = 0 then none else some (-n, rest)
  | none, none => (takeNumber 4 cs).map fun (n, rest) => (n, rest)

/-- A date that there is. -/
def takeDate (cs : List Char) : Option (Civil × List Char) := do
  let (year, cs) ← takeYear cs
  let (month, cs) ← takeNumber 2 (← Json.expect '-' cs)
  let (day, cs) ← takeNumber 2 (← Json.expect '-' cs)
  let date : Civil := ⟨year, month, day⟩
  if Civil.ofDays date.days = date then return (date, cs) else none

/-- A time of the day, in milliseconds. -/
def takeTime (cs : List Char) : Option (Nat × List Char) := do
  let (hours, cs) ← takeNumber 2 cs
  let (minutes, cs) ← takeNumber 2 (← Json.expect ':' cs)
  let (seconds, cs) ← takeNumber 2 (← Json.expect ':' cs)
  let (millis, cs) ← takeNumber 3 (← Json.expect '.' cs)
  if hours < 24 ∧ minutes < 60 ∧ seconds < 60 then
    return (((hours * 60 + minutes) * 60 + seconds) * 1000 + millis, cs)
  else none

/-- An instant as `toISOString` writes it. -/
def isoInstant (cs : List Char) : Option Instant := do
  let (date, cs) ← takeDate cs
  let (millis, cs) ← takeTime (← Json.expect 'T' cs)
  if cs = ['Z'] then return date.days * millisPerDay + millis else none

/-- `Date.parse`, with what the engine makes of texts in other formats. -/
def dateParse (otherFormat : String → Option DateTime) (text : String) : Option DateTime :=
  match isoInstant text.toList with
  | some t => if valid : t.natAbs ≤ maxTime then some ⟨t, valid⟩ else none
  | none => otherFormat text

/-! ## Cursors and pages -/

structure CursorPayload where
  createdAt : String
  id : String
  deriving DecidableEq

def encodeCursor (payload : CursorPayload) : String :=
  let json := Json.stringify [("createdAt", payload.createdAt), ("id", payload.id)]
  String.ofList (Buffer.toBase64url (Buffer.fromUtf8 json.toList))

def invalidCursor (message : String) : Failure := .http .badRequest "InvalidCursor" message

/-- No text is refused as base64url. -/
def decodeCursor (otherFormat : String → Option DateTime) (raw : String) :
    Except Failure CursorPayload :=
  let json := String.ofList (Buffer.toUtf8 (Buffer.fromBase64url raw.toList))
  match Json.parse json with
  | none => .error (invalidCursor "Cursor payload is not valid JSON")
  | some (.obj members) =>
    match Json.get? members "createdAt", Json.get? members "id" with
    | some (.str createdAt), some (.str id) =>
      if (dateParse otherFormat createdAt).isNone then
        .error (invalidCursor "Cursor.createdAt is not a valid ISO date")
      else .ok ⟨createdAt, id⟩
    | _, _ => .error (invalidCursor "Cursor must contain createdAt + id strings")
  | some _ => .error (invalidCursor "Cursor must contain createdAt + id strings")

structure CursorPage (R : Type) where
  items : List R
  nextCursor : Option String
  deriving DecidableEq

def buildCursorPage {R : Type} (createdAt : R → DateTime) (id : R → String) (rows : List R)
    (limit : Nat) : CursorPage R :=
  if rows.length ≤ limit then ⟨rows, none⟩
  else
    let items := rows.take limit
    ⟨items, items.getLast?.map fun boundary =>
      encodeCursor ⟨(createdAt boundary).val.toISOString, id boundary⟩⟩

/-! ## What is encoded is decoded -/

theorem takeNumber_padStart {width n : Nat} (pos : 0 < width) (fits : n < 10 ^ width)
    (rest : List Char) : takeNumber width ((padStart width n).toList ++ rest) = some (n, rest) := by
  have length : (padStart width n).toList.length = width := by
    rw [String.length_toList, length_padStart pos fits]
  unfold takeNumber
  rw [List.take_left' length, if_pos length, readDigits_padStart, List.drop_left' length]
  rfl

/-- A text of six digits or a four-digit one has no sign. -/
theorem expect_padStart {sign : Char} (noDigit : sign.isDigit = false) (width n : Nat)
    (rest : List Char) : Json.expect sign ((padStart width n).toList ++ rest) = none := by
  obtain ⟨d, ds, text, digit⟩ := padStart_head width n
  rw [text]
  refine Json.expect_other ?_ _
  rintro rfl
  exact absurd digit (by simp [noDigit])

/-- A year that has six digits at most is read back. -/
theorem takeYear_text (year : Int) (fits : year.natAbs < 10 ^ 6) (rest : List Char) :
    takeYear ((if 0 ≤ year ∧ year ≤ 9999 then padStart 4 year.toNat
      else (if year < 0 then "-" else "+") ++ padStart 6 year.natAbs).toList ++ rest) =
        some (year, rest) := by
  unfold takeYear
  by_cases four : 0 ≤ year ∧ year ≤ 9999
  · rw [if_pos four, expect_padStart rfl, expect_padStart rfl]
    simp only [takeNumber_padStart (show 0 < 4 by decide) (show year.toNat < 10 ^ 4 by omega),
      Option.map_some, Option.some.injEq, Prod.mk.injEq, and_true]
    omega
  · rw [if_neg four]
    by_cases negative : year < 0
    · rw [if_pos negative]
      have minus : ("-" ++ padStart 6 year.natAbs).toList ++ rest =
          '-' :: ((padStart 6 year.natAbs).toList ++ rest) := by simp
      rw [minus, Json.expect_other (by decide), Json.expect_self]
      simp only [takeNumber_padStart (show 0 < 6 by decide) fits, Option.bind_some]
      rw [if_neg (by omega)]
      simp only [Option.some.injEq, Prod.mk.injEq, and_true]
      omega
    · rw [if_neg negative]
      have plus : ("+" ++ padStart 6 year.natAbs).toList ++ rest =
          '+' :: ((padStart 6 year.natAbs).toList ++ rest) := by simp
      rw [plus, Json.expect_self]
      simp only [takeNumber_padStart (show 0 < 6 by decide) fits, Option.map_some,
        Option.some.injEq, Prod.mk.injEq, and_true]
      omega

theorem takeDate_text {date : Civil} (there : Civil.ofDays date.days = date)
    (fits : date.year.natAbs < 10 ^ 6) (rest : List Char) :
    takeDate ((if 0 ≤ date.year ∧ date.year ≤ 9999 then padStart 4 date.year.toNat
      else (if date.year < 0 then "-" else "+") ++ padStart 6 date.year.natAbs).toList ++
        '-' :: ((padStart 2 date.month).toList ++ '-' :: ((padStart 2 date.day).toList ++ rest))) =
      some (date, rest) := by
  have range := Civil.ofDays_range date.days
  rw [there] at range
  have two : ∀ n < 100, ∀ rest, takeNumber 2 ((padStart 2 n).toList ++ rest) = some (n, rest) :=
    fun n fits rest => takeNumber_padStart (by decide) fits rest
  simp only [takeDate, takeYear_text date.year fits, Json.expect_self, Option.bind_eq_bind,
    Option.bind_some, two date.month (by omega), two date.day (by omega)]
  exact if_pos there

theorem takeTime_text {millis : Nat} (small : millis < 86400000) (rest : List Char) :
    takeTime ((padStart 2 (millis / 3600000)).toList ++
      ':' :: ((padStart 2 (millis / 60000 % 60)).toList ++
      ':' :: ((padStart 2 (millis / 1000 % 60)).toList ++
      '.' :: ((padStart 3 (millis % 1000)).toList ++ rest)))) = some (millis, rest) := by
  have two : ∀ n < 100, ∀ rest, takeNumber 2 ((padStart 2 n).toList ++ rest) = some (n, rest) :=
    fun n fits rest => takeNumber_padStart (by decide) fits rest
  have three : ∀ n < 1000, ∀ rest, takeNumber 3 ((padStart 3 n).toList ++ rest) = some (n, rest) :=
    fun n fits rest => takeNumber_padStart (by decide) fits rest
  simp only [takeTime, Json.expect_self, Option.bind_eq_bind, Option.bind_some,
    two (millis / 3600000) (by omega), two (millis / 60000 % 60) (by omega),
    two (millis / 1000 % 60) (by omega), three (millis % 1000) (by omega)]
  rw [if_pos (by omega)]
  refine congrArg some (Prod.ext ?_ rfl)
  dsimp only
  omega

/-- What `toISOString` writes is read back. -/
theorem toISOString_read (t : DateTime) : isoInstant t.val.toISOString.toList = some t.val := by
  obtain ⟨t, within⟩ := t
  dsimp only
  have pos : (0 : Int) ≤ millisPerDay := by decide
  have ediv : t.fdiv millisPerDay = t / 86400000 := Int.fdiv_eq_ediv_of_nonneg _ pos
  have emod : t.fmod millisPerDay = t % 86400000 := Int.fmod_eq_emod_of_nonneg _ pos
  have days := Civil.days_ofDays (t.fdiv millisPerDay)
  have fits : (Civil.ofDays (t.fdiv millisPerDay)).year.natAbs < 10 ^ 6 := by
    unfold maxTime at within
    exact Civil.ofDays_year (by omega) (by omega)
  have whole : t.fdiv millisPerDay * millisPerDay + (t.fmod millisPerDay).toNat = t := by
    unfold millisPerDay at *
    omega
  have small : (t.fmod millisPerDay).toNat < 86400000 := by
    rw [emod]
    omega
  have dash : "-".toList = ['-'] := rfl
  have tee : "T".toList = ['T'] := rfl
  have colon : ":".toList = [':'] := rfl
  have dot : ".".toList = ['.'] := rfl
  have zed : "Z".toList = ['Z'] := rfl
  have there : Civil.ofDays (Civil.ofDays (t.fdiv millisPerDay)).days =
      Civil.ofDays (t.fdiv millisPerDay) := by rw [days]
  simp only [Instant.toISOString, String.toList_append, List.append_assoc, dash, tee, colon, dot,
    zed, List.cons_append, List.nil_append]
  rw [isoInstant, takeDate_text there fits]
  simp only [Option.bind_eq_bind, Option.bind_some, Json.expect_self, takeTime_text small, if_true,
    days, whole]
  rfl

theorem dateParse_toISOString (otherFormat : String → Option DateTime) (t : DateTime) :
    dateParse otherFormat t.val.toISOString = some t := by
  rw [dateParse, toISOString_read]
  exact dif_pos t.property

/-- **A cursor is decoded to what was encoded**, if its date is one. -/
theorem decodeCursor_encodeCursor {otherFormat : String → Option DateTime} {p : CursorPayload}
    (date : (dateParse otherFormat p.createdAt).isSome) :
    decodeCursor otherFormat (encodeCursor p) = .ok p := by
  have json : ∀ s : String, String.ofList (Buffer.toUtf8 (Buffer.fromBase64url
      (String.ofList (Buffer.toBase64url (Buffer.fromUtf8 s.toList))).toList)) = s := by
    intro s
    rw [String.toList_ofList, Buffer.fromBase64url_toBase64url, Buffer.toUtf8_fromUtf8,
      String.ofList_toList]
  have members : Json.get? (Json.strings [("createdAt", p.createdAt), ("id", p.id)]) "createdAt" =
      some (.str p.createdAt) ∧
      Json.get? (Json.strings [("createdAt", p.createdAt), ("id", p.id)]) "id" =
        some (.str p.id) := by
    constructor <;> rfl
  have valid : (dateParse otherFormat p.createdAt).isNone = false := by
    rw [Option.isNone_eq_false_iff]
    exact date
  simp only [decodeCursor, encodeCursor, json, Json.parse_stringify, members.1, members.2, valid,
    Bool.false_eq_true, if_false]

end Dormitory
