import DawnPatrol.Go.Zones
import DawnPatrol.RailsDb.CopyEffect

/-!
# The wall clock of a converted date

`ToAssociationTimeZone` is to keep the reading of the clock and to change the
zone. It hands the minute to `time.Date` in the place of the hour and the hour
in that of the minute. So it keeps a reading that exists in Los Angeles exactly
when its hour and its minute are equal (`toAssociationTimeZone_keeps_clock_iff`).

What is used of the zone files is collected in `Pacific`. No two offsets of the
zone differ by a multiple of 59 minutes, which is what one hour taken for one
minute comes to.
-/

set_option autoImplicit false

namespace DawnPatrol.RailsDb

open Foundation Go Postgres Execution Db Rails

/-! ## The zone of the association -/

/-- The offsets of Los Angeles: local mean time until 1883, standard time, and
daylight saving time. -/
def pacificOffsets : List ℤ := [-28378, -28800, -25200]

/-- The time of day of a reading of the clock. -/
def timeOfDay (reading : ℤ) : ℤ := reading % 86400

/-- A change of the offset comes on a day, by the clocks before and after it, and
not in the hour before or after midnight. -/
structure AwayFromMidnight (change : ZoneChange) : Prop where
  sameDay : (change.instant + change.before) / 86400 = (change.instant + change.after) / 86400
  before : 3600 ≤ timeOfDay (change.instant + change.before) ∧
    timeOfDay (change.instant + change.before) ≤ 82800
  after : 3600 ≤ timeOfDay (change.instant + change.after) ∧
    timeOfDay (change.instant + change.after) ≤ 82800

/-- What the zone files say of America/Los_Angeles: its offsets, that its changes
are at least a day apart, and that they are made away from midnight. -/
structure Pacific (loc : Location) : Prop where
  offsets : ∀ offset ∈ loc.offsets, offset ∈ pacificOffsets
  apart : loc.transitions.Pairwise fun earlier later => earlier.start + 86400 ≤ later.start
  awayFromMidnight : ∀ change ∈ loc.changes, AwayFromMidnight change

/-- Los Angeles with the changes of 1883 and of the year 2017. -/
def losAngeles2017 : Location where
  firstOffset := -28378
  transitions := [⟨-2717640000, -28800⟩, ⟨1489312800, -25200⟩, ⟨1509872400, -28800⟩]
  ordered := by decide

theorem pacific_losAngeles2017 : Pacific losAngeles2017 where
  offsets := by decide
  apart := by decide
  awayFromMidnight := by
    have each : ∀ change ∈ losAngeles2017.changes, change = ⟨-2717640000, -28378, -28800⟩ ∨
        change = ⟨1489312800, -28800, -25200⟩ ∨ change = ⟨1509872400, -25200, -28800⟩ := by
      decide
    intro change member
    rcases each change member with rfl | rfl | rfl
    · exact ⟨by decide, by decide, by decide⟩
    · exact ⟨by decide, by decide, by decide⟩
    · exact ⟨by decide, by decide, by decide⟩

/-- An environment whose zone files hold that location. -/
def inLosAngeles : Environment := { Environment.plain with zone := fun _ => losAngeles2017 }

theorem Pacific.calm {loc : Location} (pacific : Pacific loc) : loc.Calm 28800 where
  bounded := by
    intro offset member
    have := pacific.offsets offset member
    simp only [pacificOffsets, List.mem_cons, List.not_mem_nil, or_false] at this
    omega
  apart := pacific.apart.imp fun apart => by omega

/-! ## The conversion -/

section Conversion

variable {env : Environment}

/-- The clock seconds that the fields of a date stand for, in the order in which
the source hands them on. -/
def handedOn (date : Time) : ℤ :=
  Time.clockSeconds date.year date.month date.day date.minute date.hour date.second

theorem handedOn_eq (date : Time) :
    handedOn date = date.wall + 3540 * (date.minute - date.hour) := by
  rw [← Time.clockSeconds_reading date]
  simp only [handedOn, Time.clockSeconds]
  omega

/-- The date in the time zone of the association, by its instant. -/
theorem inAssociationTimeZone_fields (date : Time) :
    let loc := env.zone associationTimeZone
    let instant := handedOn date - chooseOffset loc (handedOn date)
    (inAssociationTimeZone env date).sec = instant ∧
      (inAssociationTimeZone env date).nsec = date.nsec ∧
      (inAssociationTimeZone env date).offset = (loc.lookup instant).offset :=
  Time.date_fields _ _ _ _ _ _ date.month_range.1 date.month_range.2 date.nsec_lt

theorem run_toAssociationTimeZone (date : Time) {m : Machine}
    (loads : m.script .loadLocation 0 = .none) :
    ∃ later, run env (toAssociationTimeZone date) m =
      (.ok (inAssociationTimeZone env date, none), later) := by
  refine ⟨⟨m.world, m.script.next .loadLocation⟩, ?_⟩
  simp only [toAssociationTimeZone, Program.bind_eq, Program.perform_bind, run_call, handle,
    Call.kind, answer, loads]
  rfl

/-- **Converting keeps the clock** exactly for readings whose hour and minute are
equal. -/
theorem toAssociationTimeZone_keeps_clock_iff
    (pacific : Pacific (env.zone "America/Los_Angeles")) {date : Time}
    (shown : (env.zone "America/Los_Angeles").Shows date.wall) {m : Machine}
    (loads : m.script .loadLocation 0 = .none) :
    ∃ t later, run env (toAssociationTimeZone date) m = (.ok (t, none), later) ∧
      ((t.in (env.zone "America/Los_Angeles")).SameReading date ↔ date.hour = date.minute) := by
  obtain ⟨later, ran⟩ := @run_toAssociationTimeZone env date m loads
  refine ⟨_, later, ran, ?_⟩
  obtain ⟨instant, nsec, -⟩ := @inAssociationTimeZone_fields env date
  set loc := env.zone "America/Los_Angeles" with locIs
  have chosen := pacific.offsets _ (chooseOffset_mem loc (handedOn date))
  have shownAt := pacific.offsets _
    (loc.lookup_offset (handedOn date - chooseOffset loc (handedOn date)))
  have reading : ((inAssociationTimeZone env date).in loc).wall =
      handedOn date - chooseOffset loc (handedOn date) +
        (loc.lookup (handedOn date - chooseOffset loc (handedOn date))).offset := by
    simp only [Time.wall, Time.in, instant]
    rfl
  rw [Time.sameReading_iff, reading]
  have swapped := handedOn_eq date
  constructor
  · rintro ⟨same, -⟩
    -- the offsets differ by no multiple of 59 minutes
    simp only [pacificOffsets, List.mem_cons, List.not_mem_nil, or_false] at chosen shownAt
    omega
  · intro equal
    have unmoved : handedOn date = date.wall := by
      rw [swapped, equal, sub_self, mul_zero, add_zero]
    rw [← unmoved] at shown ⊢
    exact ⟨chooseOffset_shows pacific.calm shown, nsec⟩

/-- Nine minutes past nine on a day in July is converted to the same reading. -/
theorem nine_past_nine_keeps_clock :
    ∃ t later, run inLosAngeles (toAssociationTimeZone ⟨1500973740, 0, 0, by decide⟩)
        ⟨.withEvent .empty "CBRA", .clear⟩ = (.ok (t, none), later) ∧
      (t.in losAngeles2017).SameReading ⟨1500973740, 0, 0, by decide⟩ := by
  obtain ⟨t, later, ran, keeps⟩ := @toAssociationTimeZone_keeps_clock_iff inLosAngeles
    pacific_losAngeles2017 ⟨1500973740, 0, 0, by decide⟩ ⟨1500998940, by decide⟩
    ⟨.withEvent .empty "CBRA", .clear⟩ rfl
  exact ⟨t, later, ran, keeps.mpr (by decide)⟩

/-- **Half past nine** is converted to another time of day. -/
theorem half_past_nine_moves :
    ¬ ∀ env : Environment, Pacific (env.zone "America/Los_Angeles") → ∀ date : Time,
      (env.zone "America/Los_Angeles").Shows date.wall → ∀ m : Machine,
        m.script .loadLocation 0 = .none →
          ∃ t later, run env (toAssociationTimeZone date) m = (.ok (t, none), later) ∧
            (t.in (env.zone "America/Los_Angeles")).SameReading date := by
  intro keeps
  obtain ⟨t, later, ran, same⟩ := keeps inLosAngeles pacific_losAngeles2017
    ⟨1500975000, 0, 0, by decide⟩ ⟨1501000200, by decide⟩ ⟨.withEvent .empty "CBRA", .clear⟩ rfl
  obtain ⟨_, converted⟩ := @run_toAssociationTimeZone inLosAngeles ⟨1500975000, 0, 0, by decide⟩
    ⟨.withEvent .empty "CBRA", .clear⟩ rfl
  obtain rfl : t = inAssociationTimeZone inLosAngeles ⟨1500975000, 0, 0, by decide⟩ := by
    have both := ran.symm.trans converted
    simp only [Prod.mk.injEq, Except.ok.injEq, and_true] at both
    exact both.1
  exact absurd same.hour (by decide)

end Conversion

end DawnPatrol.RailsDb
