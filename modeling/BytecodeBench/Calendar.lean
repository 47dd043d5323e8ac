import BytecodeBench.Fault
import BytecodeBench.Text.Basic

/-! Moments in time: seconds since the start of 1970, and their dates in the calendar. -/

namespace BytecodeBench

/-- A moment by its seconds and microseconds. -/
structure Moment where
  seconds : Int
  micros : Nat
  deriving DecidableEq, Repr

namespace Moment

/-- The nearest whole number; a half goes to the even one. -/
def nearest (x : Float) : Float :=
  let rounded := x.round
  if (x - rounded).abs == 0.5 then 2.0 * (x / 2.0).round else rounded

/-- The moment after some seconds, to the nearest microsecond. -/
def ofSeconds (x : Float) : Except Fault Moment :=
  if x.isNaN then .error .noTime
  else if x < -9223372036854775808.0 ∨ 9223372036854775808.0 ≤ x then .error .tooLarge
  else
    let whole := if x < 0.0 then x.ceil else x.floor
    let micros := (nearest ((x - whole) * 1000000.0)).toInt64.toInt
    let seconds := whole.toInt64.toInt
    if micros ≥ 1000000 then .ok ⟨seconds + 1, (micros - 1000000).toNat⟩
    else if micros < 0 then .ok ⟨seconds - 1, (micros + 1000000).toNat⟩
    else .ok ⟨seconds, micros.toNat⟩

/-- The day of a moment, counted from the start of 1970. -/
def day (m : Moment) : Int := m.seconds.fdiv 86400

/-- Year, month and day of a day. Years are taken to start in March, so that a leap day is the last day
of its year. -/
def date (day : Int) : Int × Nat × Nat :=
  let shifted := day + 719468
  let era := shifted.fdiv 146097
  let dayOfEra := (shifted.fmod 146097).toNat
  let yearOfEra := (dayOfEra - dayOfEra / 1460 + dayOfEra / 36524 - dayOfEra / 146096) / 365
  let dayOfYear := dayOfEra - (365 * yearOfEra + yearOfEra / 4 - yearOfEra / 100)
  let marchMonth := (5 * dayOfYear + 2) / 153
  let dayOfMonth := dayOfYear - (153 * marchMonth + 2) / 5 + 1
  let month := if marchMonth < 10 then marchMonth + 3 else marchMonth - 9
  let year := yearOfEra + era * 400
  (if month ≤ 2 then year + 1 else year, month, dayOfMonth)

def padded (width n : Nat) : String := Text.padLeft width '0' (toString n)

/-- Refuses a year outside the calendar. -/
def checkYear (year : Int) : Except Fault Unit :=
  if year - 1900 < -2147483648 ∨ 2147483647 < year - 1900 then .error .yearTooLarge
  else if year < 1 ∨ 9999 < year then .error (.yearOutOfRange year)
  else .ok ()

/-- Date and time of a moment; microseconds are left out if there are none. The day before has to be in
the calendar too. -/
def text (m : Moment) : Except Fault String := do
  let (year, month, day) := date m.day
  checkYear year
  checkYear (date (m.day - 1)).1
  let time := (m.seconds.fmod 86400).toNat
  return padded 4 year.toNat ++ "-" ++ padded 2 month ++ "-" ++ padded 2 day ++ "T" ++
    padded 2 (time / 3600) ++ ":" ++ padded 2 (time / 60 % 60) ++ ":" ++ padded 2 (time % 60) ++
    if m.micros = 0 then "" else "." ++ padded 6 m.micros

end Moment

end BytecodeBench
