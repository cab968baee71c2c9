/-!
Instants of the calendar as text: a date, a time of the day in Greenwich and as much of a fraction
as is needed. An instant is a number of nanoseconds since the start of 1970.
-/

namespace FaultInjection.Instant

structure Date where
  year : Int
  month : Int
  day : Int
  deriving DecidableEq, Repr

/-- The date that comes a number of days after the first of March of the year 0. Years that start
in March have their leap day at the end, so that all months but the last have fixed lengths. -/
def dateOfMarchDays (days : Int) : Date :=
  let era := days.fdiv 146097
  let dayOfEra := days.fmod 146097
  let yearOfEra := (dayOfEra - dayOfEra / 1460 + dayOfEra / 36524 - dayOfEra / 146096) / 365
  let dayOfYear := dayOfEra - (365 * yearOfEra + yearOfEra / 4 - yearOfEra / 100)
  let march := (5 * dayOfYear + 2) / 153
  let month := if march < 10 then march + 3 else march - 9
  ⟨yearOfEra + era * 400 + (if month ≤ 2 then 1 else 0), month,
    dayOfYear - (153 * march + 2) / 5 + 1⟩

def dateOfDays (days : Int) : Date := dateOfMarchDays (days + 719468)

def padded (width : Nat) (value : Nat) : String :=
  let digits := toString value
  String.ofList (List.replicate (width - digits.length) '0') ++ digits

def yearText (year : Int) : String :=
  if 0 ≤ year ∧ year ≤ 9999 then padded 4 year.toNat
  else (if year < 0 then "-" else "+") ++ padded 4 year.natAbs

/-- Three, six or nine digits, or nothing at a whole second. -/
def fractionText (nanos : Nat) : String :=
  if nanos = 0 then ""
  else if nanos % 1000000 = 0 then "." ++ padded 3 (nanos / 1000000)
  else if nanos % 1000 = 0 then "." ++ padded 6 (nanos / 1000)
  else "." ++ padded 9 nanos

def text (instant : Int) : String :=
  let seconds := instant.fdiv 1000000000
  let date := dateOfDays (seconds.fdiv 86400)
  let second := (seconds.fmod 86400).toNat
  let pair (value : Nat) := padded 2 value
  yearText date.year ++ "-" ++ pair date.month.toNat ++ "-" ++ pair date.day.toNat ++ "T" ++
    pair (second / 3600) ++ ":" ++ pair (second / 60 % 60) ++ ":" ++ pair (second % 60) ++
    fractionText (instant.fmod 1000000000).toNat ++ "Z"

example : text 0 = "1970-01-01T00:00:00Z" := by decide +kernel

example : text 951782399500000000 = "2000-02-28T23:59:59.500Z" := by decide +kernel

example : text (-1) = "1969-12-31T23:59:59.999999999Z" := by decide +kernel

end FaultInjection.Instant
