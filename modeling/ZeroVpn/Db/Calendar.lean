import ZeroVpn.Db.Schema

/-!
# Instants and monthly windows

An `OffsetDateTime` in UTC is a number of nanoseconds since the epoch.  Binding
it to a `TIMESTAMPTZ` parameter keeps whole microseconds counted from the
PostgreSQL epoch (2000-01-01), dropping the rest towards that epoch.

`firstOfMonth` and `firstOfNextMonth` are the two boundary functions of
`crates/zerovpn-db/src/repos/users.rs`, over the proleptic Gregorian calendar.
-/

namespace ZeroVpn
namespace Db

/-- 2000-01-01T00:00:00Z, in microseconds since the Unix epoch. -/
def pgEpoch : Int := 946684800 * 1000000

/-- The value a `TIMESTAMPTZ` parameter takes for an instant. -/
def toTimestamp (t : Int) : Int :=
  (t - pgEpoch * 1000).tdiv 1000 + pgEpoch

/-- The instant read back from a `TIMESTAMPTZ` column. -/
def ofTimestamp (t : Int) : Int := t * 1000

theorem toTimestamp_mono {t t' : Int} (h : t ≤ t') :
    toTimestamp t ≤ toTimestamp t' := by
  unfold toTimestamp
  have htdiv : (t - pgEpoch * 1000).tdiv 1000 ≤ (t' - pgEpoch * 1000).tdiv 1000 :=
    Int.tdiv_le_tdiv (by omega) (by omega)
  omega

@[simp] theorem toTimestamp_ofTimestamp (t : Int) :
    toTimestamp (ofTimestamp t) = t := by
  unfold toTimestamp ofTimestamp
  have h : t * 1000 - pgEpoch * 1000 = (t - pgEpoch) * 1000 := by omega
  rw [h, Int.mul_tdiv_cancel _ (by omega)]
  omega

/-- A calendar date. -/
structure Date where
  year : Int
  month : Int
  day : Int
  deriving DecidableEq, Repr

/-- The date of a day number, counted from 1970-01-01. -/
def Date.ofDays (days : Int) : Date :=
  -- years are counted from March, so that the leap day ends a year
  let z := days + 719468
  let era := z / 146097
  let dayOfEra := z - era * 146097
  let yearOfEra :=
    (dayOfEra - dayOfEra / 1460 + dayOfEra / 36524 - dayOfEra / 146096) / 365
  let dayOfYear := dayOfEra - (365 * yearOfEra + yearOfEra / 4 - yearOfEra / 100)
  let mp := (5 * dayOfYear + 2) / 153
  let day := dayOfYear - (153 * mp + 2) / 5 + 1
  let month := if mp < 10 then mp + 3 else mp - 9
  { year := yearOfEra + era * 400 + (if month ≤ 2 then 1 else 0)
    month := month
    day := day }

/-- The day number of a date. -/
def Date.toDays (d : Date) : Int :=
  let y := if d.month ≤ 2 then d.year - 1 else d.year
  let era := y / 400
  let yearOfEra := y - era * 400
  let mp := if 2 < d.month then d.month - 3 else d.month + 9
  let dayOfYear := (153 * mp + 2) / 5 + d.day - 1
  let dayOfEra := yearOfEra * 365 + yearOfEra / 4 - yearOfEra / 100 + dayOfYear
  era * 146097 + dayOfEra - 719468

def nanosPerDay : Int := 86400 * 1000000000

/-- Midnight UTC of a date. -/
def midnight (d : Date) : Int := d.toDays * nanosPerDay

/-- The date of an instant. -/
def dateOf (t : Int) : Date := Date.ofDays (t / nanosPerDay)

/-- `first_of_month`. -/
def firstOfMonth (t : Int) : Int :=
  midnight { year := (dateOf t).year, month := (dateOf t).month, day := 1 }

/-- `first_of_next_month`. -/
def firstOfNextMonth (t : Int) : Int :=
  if (dateOf t).month = 12 then
    midnight { year := (dateOf t).year + 1, month := 1, day := 1 }
  else
    midnight { year := (dateOf t).year, month := (dateOf t).month + 1, day := 1 }

end Db
end ZeroVpn
