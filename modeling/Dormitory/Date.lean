import Dormitory.Schema

/-!
# Dates

`packages/shared/src/date.ts`, with the calendar of `Date` underneath: days are
counted from 1970-01-01, and a Bangkok wall-clock midnight is turned into the
instant it names.
-/

namespace Dormitory

/-- A day of the (proleptic) Gregorian calendar. -/
structure Civil where
  year : Int
  month : Nat
  day : Nat
  deriving DecidableEq, Repr

/-- Days since 1970-01-01; the year is taken to start in March. -/
def Civil.days (c : Civil) : Int :=
  let y := if c.month ≤ 2 then c.year - 1 else c.year
  let era := y.fdiv 400
  let yearOfEra := y - era * 400
  let shifted : Int := if c.month ≤ 2 then c.month + 9 else c.month - 3
  let dayOfYear := (153 * shifted + 2) / 5 + c.day - 1
  era * 146097 + (yearOfEra * 365 + yearOfEra / 4 - yearOfEra / 100 + dayOfYear) - 719468

def Civil.ofDays (n : Int) : Civil :=
  let z := n + 719468
  let era := z.fdiv 146097
  let dayOfEra := z - era * 146097
  let yearOfEra := (dayOfEra - dayOfEra / 1460 + dayOfEra / 36524 - dayOfEra / 146096) / 365
  let dayOfYear := dayOfEra - (365 * yearOfEra + yearOfEra / 4 - yearOfEra / 100)
  let shifted := (5 * dayOfYear + 2) / 153
  let day := dayOfYear - (153 * shifted + 2) / 5 + 1
  let month := if shifted < 10 then shifted + 3 else shifted - 9
  ⟨yearOfEra + era * 400 + (if month ≤ 2 then 1 else 0), month.toNat, day.toNat⟩

def millisPerDay : Int := 86400000

/-- Bangkok is at +07:00, and was at +06:42:04 before 1920-04-01. -/
def bangkokOffset (c : Civil) : Int :=
  if c.days < Civil.days ⟨1920, 4, 1⟩ then 24124000 else 25200000

/-- `fromBangkok(new Date(y, m - 1, d))`. `Date` reads a year below 100 as one
of the twentieth century. -/
def fromBangkok (year : Nat) (month day : Nat) : Instant :=
  let c : Civil := ⟨if year < 100 then 1900 + year else year, month, day⟩
  c.days * millisPerDay - bangkokOffset c

/-- `addPeriod(period, 1)`, as year and month. -/
def Period.next (p : Period) : Nat × Nat :=
  let total := p.year * 12 + (p.month - 1) + 1
  (total / 12, total % 12 + 1)

/-- `toISOString().slice(0, 10)`. A year outside 0–9999 has a sign and six digits. -/
def Instant.isoDate (t : Instant) : String :=
  let c := Civil.ofDays (t.fdiv millisPerDay)
  let rest := "-" ++ padStart 2 c.month ++ "-" ++ padStart 2 c.day
  if 0 ≤ c.year ∧ c.year ≤ 9999 then padStart 4 c.year.toNat ++ rest
  else
    let sign := if c.year < 0 then "-" else "+"
    String.ofList ((sign ++ padStart 6 c.year.natAbs ++ rest).toList.take 10)

/-- `toISOString()`. -/
def Instant.toISOString (t : Instant) : String :=
  let c := Civil.ofDays (t.fdiv millisPerDay)
  let millis := (t.fmod millisPerDay).toNat
  let year :=
    if 0 ≤ c.year ∧ c.year ≤ 9999 then padStart 4 c.year.toNat
    else (if c.year < 0 then "-" else "+") ++ padStart 6 c.year.natAbs
  year ++ "-" ++ padStart 2 c.month ++ "-" ++ padStart 2 c.day ++ "T" ++
    padStart 2 (millis / 3600000) ++ ":" ++ padStart 2 (millis / 60000 % 60) ++ ":" ++
    padStart 2 (millis / 1000 % 60) ++ "." ++ padStart 3 (millis % 1000) ++ "Z"

end Dormitory
