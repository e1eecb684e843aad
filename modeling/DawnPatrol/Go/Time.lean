import DawnPatrol.Foundation.Calendar
import Mathlib.Data.List.Basic

/-!
# Times, time zones and `time.Date`

A time is an instant, in seconds and nanoseconds since the first of January
1970 UTC, with the offset its location has at that instant. A location is the
list of its offset changes. `date` follows the standard library: fields out of
range carry into larger ones, and the offset is guessed from the clock reading
and corrected once when the guess falls outside the span it was taken from.

The clock readings of a time lie in their ranges, and determine the time
together with its nanoseconds and offset (`clockSeconds_reading`).
-/

set_option autoImplicit false

namespace DawnPatrol.Go

open Foundation.Calendar

/-! ## Locations -/

/-- An offset in seconds east of UTC that applies from an instant on. -/
structure ZoneTransition where
  start : ℤ
  offset : ℤ
  deriving DecidableEq

/-- A location: the offset before the first change, and the changes in order. -/
structure Location where
  firstOffset : ℤ
  transitions : List ZoneTransition
  ordered : transitions.Pairwise fun earlier later => earlier.start < later.start

/-- The offset at an instant, with the span of instants it applies to. -/
structure ZoneSpan where
  offset : ℤ
  start : Option ℤ
  stop : Option ℤ
  deriving DecidableEq

/-- The location UTC. -/
def Location.utc : Location where
  firstOffset := 0
  transitions := []
  ordered := .nil

/-- Walk the changes up to an instant, from a span that starts at `start`. -/
def lookupFrom (sec offset : ℤ) (start : Option ℤ) : List ZoneTransition → ZoneSpan
  | [] => ⟨offset, start, none⟩
  | change :: later =>
      if sec < change.start then ⟨offset, start, some change.start⟩
      else lookupFrom sec change.offset (some change.start) later

/-- The span of a location that contains an instant. -/
def Location.lookup (loc : Location) (sec : ℤ) : ZoneSpan :=
  lookupFrom sec loc.firstOffset none loc.transitions

/-! ## Times -/

/-- An instant with the offset its location has then. -/
structure Time where
  sec : ℤ
  nsec : ℕ
  offset : ℤ
  nsec_lt : nsec < 1000000000
  deriving DecidableEq

namespace Time

@[ext] theorem ext {first second : Time} (sec : first.sec = second.sec)
    (nsec : first.nsec = second.nsec) (offset : first.offset = second.offset) :
    first = second := by
  cases first
  cases second
  simp_all

/-- The day number of the first of January 1970. -/
def epochDay : ℤ := 719162

/-- The zero value of `time.Time`: the first of January of year 1, UTC. -/
def zero : Time := ⟨-62135596800, 0, 0, by decide⟩

instance : Inhabited Time := ⟨zero⟩

/-- Seconds of the clock at the location of the time. -/
def wall (t : Time) : ℤ := t.sec + t.offset

/-- The date the clock shows. -/
def civil (t : Time) : CivilDate := civilDate (t.wall / 86400 + epochDay)

def year (t : Time) : ℤ := t.civil.year
def month (t : Time) : ℕ := t.civil.month
def day (t : Time) : ℤ := t.civil.day
def hour (t : Time) : ℤ := t.wall % 86400 / 3600
def minute (t : Time) : ℤ := t.wall % 3600 / 60
def second (t : Time) : ℤ := t.wall % 60
def nanosecond (t : Time) : ℤ := t.nsec

/-- The seconds at which a clock at UTC shows a date and a time of day. -/
def clockSeconds (year : ℤ) (month : ℕ) (day hour min sec : ℤ) : ℤ :=
  (dayNumber year month day - epochDay) * 86400 + hour * 3600 + min * 60 + sec

/-- **The clock reading determines the seconds of the clock.** -/
theorem clockSeconds_reading (t : Time) :
    clockSeconds t.year t.month t.day t.hour t.minute t.second = t.wall := by
  have number := dayNumber_civilDate (t.wall / 86400 + epochDay)
  simp only [clockSeconds, year, month, day, civil, number, hour, minute, second]
  omega

theorem civil_exists (t : Time) : t.civil.Exists := civilDate_exists _

theorem hour_range (t : Time) : 0 ≤ t.hour ∧ t.hour < 24 := by
  simp only [hour]
  omega

theorem minute_range (t : Time) : 0 ≤ t.minute ∧ t.minute < 60 := by
  simp only [minute]
  omega

theorem second_range (t : Time) : 0 ≤ t.second ∧ t.second < 60 := by
  simp only [second]
  omega

end Time

/-! ## `time.Date` -/

/-- Carry what exceeds `base` from the low field into the high one. -/
def norm (hi lo base : ℤ) : ℤ × ℤ := (hi + lo / base, lo % base)

theorem norm_range (hi lo : ℤ) {base : ℤ} (pos : 0 < base) :
    0 ≤ (norm hi lo base).2 ∧ (norm hi lo base).2 < base :=
  ⟨Int.emod_nonneg lo pos.ne', Int.emod_lt_of_pos lo pos⟩

/-- The offset `time.Date` chooses for the seconds of a clock. -/
def chooseOffset (loc : Location) (unix : ℤ) : ℤ :=
  -- the reading is looked up as if it were UTC, which is right unless a change is near
  let span := loc.lookup unix
  if span.offset = 0 then 0
  else
    let utc := unix - span.offset
    if span.start.any (fun start => utc < start) then
      (loc.lookup (span.start.getD 0 - 1)).offset
    else if span.stop.any (fun stop => stop ≤ utc) then
      (loc.lookup (span.stop.getD 0)).offset
    else span.offset

/-- The time at which a clock at `loc` shows the given fields. Fields out of
range carry into larger ones. Where the clock skips or repeats the reading, the
offset is one of the two around the change. -/
def date (year month day hour min sec nsec : ℤ) (loc : Location) : Time :=
  let months := norm year (month - 1) 12
  let seconds := norm sec nsec 1000000000
  let minutes := norm min seconds.1 60
  let hours := norm hour minutes.1 60
  let days := norm day hours.1 24
  let unix := Time.clockSeconds months.1 (months.2.toNat + 1) days.1 days.2 hours.2 minutes.2
  let instant := unix - chooseOffset loc unix
  ⟨instant, seconds.2.toNat, (loc.lookup instant).offset, by
    have range : 0 ≤ seconds.2 ∧ seconds.2 < 1000000000 := norm_range sec nsec (by decide)
    omega⟩

end DawnPatrol.Go
