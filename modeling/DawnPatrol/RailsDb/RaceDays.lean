import DawnPatrol.RailsDb.WallClock

/-!
# The days of copied races

A Rails event is on a date, which is read as midnight UTC of that day
(`midnightUTC_iff`). In that reading the hour and the minute are equal, and
clocks in Los Angeles never skip midnight, so a copied event starts at midnight
of the same day there (`inAssociationTimeZone_midnight`). Offsets differ by less
than a day, so the events keep their order (`compare_inAssociationTimeZone`).

`copy_preserves_race_days` says it of the list that a copy hands to the event
service, whatever that service is (`run_copy_until_create`).
-/

set_option autoImplicit false

namespace DawnPatrol.RailsDb

open Foundation Foundation.Calendar Go Postgres Execution Db Rails

/-- The time of a column of type `DATE`: midnight UTC of a day. -/
structure MidnightUTC (date : Time) : Prop where
  utc : date.offset = 0
  midnight : date.sec % 86400 = 0
  nsec : date.nsec = 0

/-- A day of the calendar as the driver reads it from such a column. -/
def columnDate (day : CivilDate) : Time := date day.year day.month day.day 0 0 0 0 .utc

theorem columnDate_fields {day : CivilDate} (first : 1 ≤ day.month) (last : day.month ≤ 12) :
    (columnDate day).sec = (dayNumber day.year day.month day.day - Time.epochDay) * 86400 ∧
      (columnDate day).nsec = 0 ∧ (columnDate day).offset = 0 := by
  obtain ⟨sec, nsec, offset⟩ := Time.date_fields .utc day.year day.day 0 0 0 first last
    (show 0 < 1000000000 by decide)
  have noOffset : ∀ unix, chooseOffset .utc unix = 0 := fun _ => rfl
  refine ⟨sec.trans ?_, nsec, offset⟩
  simp only [Time.clockSeconds, noOffset]
  omega

/-- The clock at UTC shows the day of the column. -/
theorem civil_columnDate {day : CivilDate} (real : day.Exists) : (columnDate day).civil = day := by
  obtain ⟨sec, -, offset⟩ := columnDate_fields real.1 real.2.1
  have number : (columnDate day).wall / 86400 + Time.epochDay =
      dayNumber day.year day.month day.day := by
    rw [Time.wall, sec, offset]
    omega
  rw [Time.civil, number, civilDate_dayNumber real]

/-- **The times of a column of type `DATE`** are the midnights UTC, each of one day of
the calendar. -/
theorem midnightUTC_iff {t : Time} :
    MidnightUTC t ↔ ∃! day : CivilDate, day.Exists ∧ columnDate day = t := by
  constructor
  · intro midnight
    have real := t.civil_exists
    obtain ⟨sec, nsec, offset⟩ := columnDate_fields real.1 real.2.1
    have number : dayNumber t.civil.year t.civil.month t.civil.day =
        t.wall / 86400 + Time.epochDay := dayNumber_civilDate _
    have clock : t.wall = t.sec := by rw [Time.wall, midnight.utc, add_zero]
    have whole := midnight.midnight
    have same : columnDate t.civil = t := by
      refine Time.ext ?_ (nsec.trans midnight.nsec.symm) (offset.trans midnight.utc.symm)
      rw [sec, number, clock]
      omega
    refine ⟨t.civil, ⟨real, same⟩, ?_⟩
    rintro other ⟨otherReal, rfl⟩
    exact (civil_columnDate otherReal).symm
  · rintro ⟨day, ⟨real, rfl⟩, -⟩
    obtain ⟨sec, nsec, offset⟩ := columnDate_fields real.1 real.2.1
    exact ⟨offset, by rw [sec]; exact Int.mul_emod_left _ _, nsec⟩

/-! ## Midnight in Los Angeles -/

/-- The clocks of Los Angeles show every midnight. -/
theorem Pacific.shows_midnight {loc : Location} (pacific : Pacific loc) {reading : ℤ}
    (midnight : reading % 86400 = 0) : loc.Shows reading := by
  have offsetOf : ∀ sec, -28800 ≤ (loc.lookup sec).offset ∧ (loc.lookup sec).offset ≤ -25200 := by
    intro sec
    have member := pacific.offsets _ (loc.lookup_offset sec)
    simp only [pacificOffsets, List.mem_cons, List.not_mem_nil, or_false] at member
    omega
  have first := offsetOf reading
  by_cases inside : ∀ stop ∈ (loc.lookup reading).stop,
      reading - (loc.lookup reading).offset < stop
  · have same : loc.lookup (reading - (loc.lookup reading).offset) = loc.lookup reading := by
      refine loc.lookup_eq (fun start begins => ?_) inside
      have upTo := (loc.lookup_start begins).1
      omega
    refine ⟨reading - (loc.lookup reading).offset, ?_⟩
    rw [same]
    omega
  · push Not at inside
    obtain ⟨stop, stops, late⟩ := inside
    obtain ⟨behind, starts, changes⟩ := loc.lookup_stop stops
    have second := offsetOf stop
    obtain ⟨sameDay, away, -⟩ := pacific.awayFromMidnight _ changes
    simp only [timeOfDay] at sameDay away
    -- a midnight between the two readings of the change would be within an hour of it
    have after : stop ≤ reading - (loc.lookup stop).offset := by omega
    have same : loc.lookup (reading - (loc.lookup stop).offset) = loc.lookup stop := by
      refine loc.lookup_eq (fun start begins => ?_) fun last ends => ?_
      · have := Option.some.inj (starts.symm.trans begins)
        omega
      · have long := pacific.calm.length starts ends
        omega
    refine ⟨reading - (loc.lookup stop).offset, ?_⟩
    rw [same]
    omega

variable {env : Environment}

/-- A midnight is handed on as it is, and converted to the instant at which the
clock shows it. -/
theorem inAssociationTimeZone_midnight (pacific : Pacific (env.zone "America/Los_Angeles"))
    {date : Time} (midnight : MidnightUTC date) :
    ((inAssociationTimeZone env date).in (env.zone "America/Los_Angeles")).SameReading date ∧
      ∃ offset ∈ pacificOffsets, (inAssociationTimeZone env date).sec = date.sec - offset := by
  obtain ⟨instant, nsec, -⟩ := @inAssociationTimeZone_fields env date
  set loc := env.zone "America/Los_Angeles" with locIs
  have wallIs : date.wall = date.sec := by rw [Time.wall, midnight.utc, add_zero]
  have unmoved : handedOn date = date.sec := by
    have isMidnight := midnight.midnight
    rw [handedOn_eq, wallIs]
    simp only [Time.minute, Time.hour, wallIs]
    omega
  have shown := chooseOffset_shows pacific.calm (pacific.shows_midnight midnight.midnight)
  change (inAssociationTimeZone env date).sec = handedOn date - chooseOffset loc _ at instant
  rw [unmoved] at instant
  refine ⟨Time.sameReading_iff.mpr ⟨?_, nsec⟩, chooseOffset loc date.sec,
    pacific.offsets _ (chooseOffset_mem loc date.sec), instant⟩
  rw [wallIs]
  simp only [Time.wall, Time.in, instant]
  exact shown

/-- Midnights that are converted keep their order. -/
theorem compare_inAssociationTimeZone (pacific : Pacific (env.zone "America/Los_Angeles"))
    {first second : Time} (midnightFirst : MidnightUTC first)
    (midnightSecond : MidnightUTC second) :
    (inAssociationTimeZone env first).compare (inAssociationTimeZone env second) =
      first.compare second := by
  obtain ⟨_, offset, member, firstIs⟩ := inAssociationTimeZone_midnight pacific midnightFirst
  obtain ⟨_, other, otherMember, secondIs⟩ :=
    inAssociationTimeZone_midnight pacific midnightSecond
  have wholeFirst := midnightFirst.midnight
  have wholeSecond := midnightSecond.midnight
  simp only [pacificOffsets, List.mem_cons, List.not_mem_nil, or_false] at member otherMember
  have nsecs : ∀ {date : Time}, MidnightUTC date → (inAssociationTimeZone env date).nsec = 0 :=
    fun midnight => (Time.sameReading_iff.mp
      (inAssociationTimeZone_midnight pacific midnight).1).2.trans midnight.nsec
  simp only [Time.compare, nsecs midnightFirst, nsecs midnightSecond, midnightFirst.nsec,
    midnightSecond.nsec]
  rcases lt_trichotomy first.sec second.sec with earlier | same | later
  · rw [compare_lt_iff_lt.mpr earlier, compare_lt_iff_lt.mpr (by omega)]
  · have equal : first = second := Time.ext same (midnightFirst.nsec.trans midnightSecond.nsec.symm)
      (midnightFirst.utc.trans midnightSecond.utc.symm)
    subst equal
    simp
  · rw [compare_gt_iff_gt.mpr later, compare_gt_iff_gt.mpr (by omega)]

/-! ## The list that a copy hands on -/

/-- **A copy up to the event service**: when it completes, it runs as the creation
of the converted events does, from a world with its association. -/
theorem run_copy_until_create {acronym : String} {m : Machine} {racing : RacingAssociation}
    (completes : Completes env m.script (m.world.rails (databaseURL env acronym)) acronym racing) :
    let railsEvents := railsEventsRead m.script (m.world.rails (databaseURL env acronym))
    let created := associationEffect env m.script acronym racing m.world.store
    ∃ (db : Conn) (before : Machine), before.world.store = created.2 ∧
      ∀ apiEventService : Api.EventService,
        run env (RacingAssociationService.copy env apiEventService associationService acronym) m =
          run env (Program.deferring (perform (.closeConn db))
            ((apiEventService.create (railsEvents.map (converted env created.1.id))).bind
              fun _ => .ret none)) before := by
  intro railsEvents created
  obtain ⟨failures, first, more, second⟩ := completes.reaches.opens
  set url := databaseURL env acronym with urlIs
  set db : Conn := ⟨m.world.nextConn, url⟩ with dbIs
  set opening : Machine := ⟨m.world.opened url, m.script.skip .openConn (failures + 1)⟩
    with openingIs
  have opened : run env (Databases.for env acronym) m = (.ok db, opening) := by
    rw [run_for, ← urlIs]
    simp only [first]
    rfl
  set reading : Machine := ⟨m.world.opened url,
    (m.script.skip .openConn (failures + 1)).next .findRailsEvents⟩ with readingIs
  set found : Machine := ⟨reading.world.opened url,
    (reading.script.skip .openConn (more + 1)).next .firstRacingAssociation⟩ with foundIs
  have looked : run env (RacingAssociationService.find env acronym) reading =
      (.ok (racing, none), found) := by
    have openFaults : reading.script .openConn =
        fun n => m.script .openConn (n + (failures + 1)) := by
      simp only [readingIs]
      rw [Script.next_of_ne _ (by decide), Script.skip_kind]
    have sameFound : racingAssociationFound env reading.script (reading.world.rails url) acronym =
        (racing, none) := completes.reaches.found
    rw [run_find, ← urlIs]
    simp only [openFaults, second, sameFound]
    rfl
  obtain ⟨script, -, wrote⟩ := run_writeCopy_until_create env acronym railsEvents racing found
  have sameZones : found.script .loadLocation = m.script .loadLocation := rfl
  have sameCreated : associationEffect env found.script acronym racing found.world.store =
      created := rfl
  refine ⟨db, ⟨{ found.world with store := created.2 }, script⟩, rfl, ?_⟩
  intro apiEventService
  have zones : firstFailure (m.script .loadLocation) railsEvents.length = none :=
    firstFailure_eq_none.mpr completes.loads
  have wroteHere := wrote apiEventService
  simp only [sameZones, sameCreated, zones] at wroteHere
  obtain ⟨rest, reads, onFound, -⟩ := @copyFrom_reads_then_finds env apiEventService db acronym
  set given := (m.script .findRailsEvents 0).scanned (m.world.rails url).events
  have read : run env (RacingAssociationService.copyFrom env apiEventService associationService
      db acronym) opening =
        run env (Program.bind (RacingAssociationService.find env acronym) (rest given))
          reading := by
    rw [reads]
    rfl
  have body : run env (RacingAssociationService.copyFrom env apiEventService associationService
      db acronym) opening =
        run env ((apiEventService.create (railsEvents.map (converted env created.1.id))).bind
          fun _ => .ret none) ⟨{ found.world with store := created.2 }, script⟩ :=
    read.trans ((run_bind_of_ok env looked (rest given)).trans (onFound given racing ▸ wroteHere))
  simp only [RacingAssociationService.copy, Program.bind_eq]
  rw [run_bind_of_ok env opened, run_deferring, run_deferring, body]

/-- A copied event carries the fields of its Rails event and the id of its
association, and starts at midnight of the same day in the zone. -/
structure CopiedRace (zone : Location) (association : Api.Association) (e : Event)
    (event : Api.Event) : Prop where
  associationID : event.associationID = association.id
  city : event.city = e.city
  discipline : event.discipline = e.discipline
  name : event.name = e.name
  state : event.state = e.state
  railsID : event.railsID = e.id
  railsCreatedAt : event.railsCreatedAt = e.createdAt
  railsUpdatedAt : event.railsUpdatedAt = e.updatedAt
  sameDay : (event.startsAt.in zone).year = e.date.year ∧
    (event.startsAt.in zone).month = e.date.month ∧ (event.startsAt.in zone).day = e.date.day
  midnight : (event.startsAt.in zone).hour = 0 ∧ (event.startsAt.in zone).minute = 0 ∧
    (event.startsAt.in zone).second = 0 ∧ (event.startsAt.in zone).nanosecond = 0

/-- A midnight UTC shows no hours, minutes, seconds or nanoseconds. -/
theorem MidnightUTC.reading {date : Time} (midnight : MidnightUTC date) :
    date.hour = 0 ∧ date.minute = 0 ∧ date.second = 0 ∧ date.nanosecond = 0 := by
  obtain ⟨utc, isMidnight, nsec⟩ := midnight
  simp only [Time.hour, Time.minute, Time.second, Time.nanosecond, Time.wall, utc, nsec]
  omega

theorem copiedRace_converted (pacific : Pacific (env.zone "America/Los_Angeles"))
    (association : Api.Association) {e : Event} (midnight : MidnightUTC e.date) :
    CopiedRace (env.zone "America/Los_Angeles") association e (converted env association.id e) := by
  obtain ⟨same, -⟩ := inAssociationTimeZone_midnight pacific midnight
  obtain ⟨hour, minute, second, nanosecond⟩ := midnight.reading
  exact ⟨rfl, rfl, rfl, rfl, rfl, rfl, rfl, rfl, ⟨same.year, same.month, same.day⟩,
    same.hour.trans hour, same.minute.trans minute, same.second.trans second,
    same.nanosecond.trans nanosecond⟩

/-- **A copy preserves the race days and their order**: the list it hands to the
event service has one event for each Rails event, in order, on the same day,
and earlier dates start earlier. -/
theorem copy_preserves_race_days (pacific : Pacific (env.zone "America/Los_Angeles"))
    {acronym : String} {m : Machine} {racing : RacingAssociation}
    (completes : Completes env m.script (m.world.rails (databaseURL env acronym)) acronym racing)
    (dates : ∀ e ∈ railsEventsRead m.script (m.world.rails (databaseURL env acronym)),
      MidnightUTC e.date) :
    let railsEvents := railsEventsRead m.script (m.world.rails (databaseURL env acronym))
    ∃ (association : Api.Association) (events : List Api.Event) (db : Conn) (before : Machine),
      (run env (associationService.firstOrCreate
        (RacingAssociationService.copiedAssociation env acronym racing)) m).1 = .ok association ∧
      (∀ apiEventService : Api.EventService,
        run env (RacingAssociationService.copy env apiEventService associationService acronym) m =
          run env (Program.deferring (perform (.closeConn db))
            ((apiEventService.create events).bind fun _ => .ret none)) before) ∧
      List.Forall₂ (CopiedRace (env.zone "America/Los_Angeles") association) railsEvents events ∧
      ∀ i j : ℕ, ∀ first ∈ railsEvents[i]?, ∀ second ∈ railsEvents[j]?,
        ∀ event ∈ events[i]?, ∀ other ∈ events[j]?,
          event.startsAt.compare other.startsAt = first.date.compare second.date := by
  intro railsEvents
  obtain ⟨db, before, -, handsOn⟩ := run_copy_until_create completes
  set created := associationEffect env m.script acronym racing m.world.store with createdIs
  refine ⟨created.1, railsEvents.map (converted env created.1.id), db, before, ?_, handsOn, ?_, ?_⟩
  · exact congrArg Prod.fst (run_firstOrCreate env _ m)
  · refine List.forall₂_map_right_iff.mpr (List.forall₂_same.mpr fun e member => ?_)
    exact copiedRace_converted pacific created.1 (dates e member)
  · intro i j first atI second atJ event eventIs other otherIs
    rw [List.getElem?_map, Option.mem_def.mp atI] at eventIs
    rw [List.getElem?_map, Option.mem_def.mp atJ] at otherIs
    cases eventIs
    cases otherIs
    exact compare_inAssociationTimeZone pacific (dates _ (List.mem_of_getElem? atI))
      (dates _ (List.mem_of_getElem? atJ))

/-- Two days of July 2017, the later one first. -/
def julyDays : List Event :=
  [{ id := 1, date := ⟨1500163200, 0, 0, Nat.zero_lt_succ _⟩ },
    { id := 2, date := ⟨1499472000, 0, 0, Nat.zero_lt_succ _⟩ }]

/-- A copy of two races in July keeps their days, and which of them is earlier. -/
theorem july_days_preserved :
    let m : Machine := ⟨.start .empty (.ofAssociation "CBRA" julyDays (by decide)), .clear⟩
    ∃ (association : Api.Association) (events : List Api.Event) (db : Conn) (before : Machine),
      (run inLosAngeles (associationService.firstOrCreate
        (RacingAssociationService.copiedAssociation inLosAngeles "CBRA"
          { id := 1, name := "CBRA", shortName := "CBRA" })) m).1 = .ok association ∧
      (∀ apiEventService : Api.EventService,
        run inLosAngeles
            (RacingAssociationService.copy inLosAngeles apiEventService associationService "CBRA")
            m =
          run inLosAngeles (Program.deferring (perform (.closeConn db))
            ((apiEventService.create events).bind fun _ => .ret none)) before) ∧
      List.Forall₂ (CopiedRace losAngeles2017 association) julyDays events ∧
      ∀ i j : ℕ, ∀ first ∈ julyDays[i]?, ∀ second ∈ julyDays[j]?,
        ∀ event ∈ events[i]?, ∀ other ∈ events[j]?,
          event.startsAt.compare other.startsAt = first.date.compare second.date :=
  copy_preserves_race_days pacific_losAngeles2017
    { reaches :=
        { opens := ⟨0, by simp [openOutcome, Script.clear], 0,
            by simp [openOutcome, Script.clear]⟩
          found := by decide }
      loads := fun _ _ => rfl }
    (by
      intro e member
      rcases List.mem_pair.mp member with rfl | rfl
      · exact ⟨rfl, rfl, rfl⟩
      · exact ⟨rfl, rfl, rfl⟩)

end DawnPatrol.RailsDb
