import DawnPatrol.Go.Time

/-!
# Readings of the clock of a location

A reading of the clock, in seconds, exists at a location when the clock shows
it at some instant. Where clocks are set forward some readings are skipped,
and where they are set back some are shown twice.

`time.Date` guesses the offset at the reading and corrects the guess once. At a
location whose changes lie far apart compared with its offsets
(`Location.Calm`) that is enough: the time it yields shows the reading whenever
the reading exists (`date_shows`).
-/

set_option autoImplicit false

namespace DawnPatrol.Go

/-! ## The spans of a location -/

/-- A change of the offset, with the offsets before and after it. -/
structure ZoneChange where
  instant : ℤ
  before : ℤ
  after : ℤ
  deriving DecidableEq

/-- The changes of a location from an offset on. -/
def changesFrom (offset : ℤ) : List ZoneTransition → List ZoneChange
  | [] => []
  | change :: later => ⟨change.start, offset, change.offset⟩ :: changesFrom change.offset later

/-- The changes of a location, with the offsets before and after them. -/
def Location.changes (loc : Location) : List ZoneChange :=
  changesFrom loc.firstOffset loc.transitions

section Spans

variable {sec other offset : ℤ} {start : Option ℤ} {changes : List ZoneTransition}

/-- Before the first change the span is the one that is at hand. -/
theorem lookupFrom_of_lt (before : ∀ change ∈ changes, sec < change.start) :
    (lookupFrom sec offset start changes).offset = offset ∧
      (lookupFrom sec offset start changes).start = start := by
  cases changes with
  | nil => exact ⟨rfl, rfl⟩
  | cons change later => simp [lookupFrom, before change List.mem_cons_self]

/-- A span starts where the one at hand does, or at a change up to the instant. -/
theorem lookupFrom_start :
    (lookupFrom sec offset start changes).start = start ∨
      ∃ change ∈ changes, (lookupFrom sec offset start changes).start = some change.start ∧
        change.start ≤ sec := by
  induction changes generalizing offset start with
  | nil => exact .inl rfl
  | cons change later ih =>
      simp only [lookupFrom]
      split
      · exact .inl rfl
      · rename_i reached
        rcases @ih change.offset (some change.start) with same | ⟨found, member, startIs, upTo⟩
        · exact .inr ⟨change, List.mem_cons_self, same, not_lt.mp reached⟩
        · exact .inr ⟨found, List.mem_cons_of_mem _ member, startIs, upTo⟩

theorem lookupFrom_stop {stop : ℤ}
    (stops : (lookupFrom sec offset start changes).stop = some stop) : sec < stop := by
  induction changes generalizing offset start with
  | nil => cases stops
  | cons change later ih =>
      simp only [lookupFrom] at stops
      split at stops
      · cases stops
        assumption
      · exact ih stops

/-- A span is the same for all of its instants. -/
theorem lookupFrom_eq (ordered : changes.Pairwise fun earlier later => earlier.start < later.start)
    (from_start : ∀ first ∈ (lookupFrom sec offset start changes).start, first ≤ other)
    (to_stop : ∀ stop ∈ (lookupFrom sec offset start changes).stop, other < stop) :
    lookupFrom other offset start changes = lookupFrom sec offset start changes := by
  induction changes generalizing offset start with
  | nil => rfl
  | cons change later ih =>
      obtain ⟨first, rest⟩ := List.pairwise_cons.mp ordered
      simp only [lookupFrom] at from_start to_stop ⊢
      by_cases before : sec < change.start
      · simp only [before, ↓reduceIte] at from_start to_stop ⊢
        simp [to_stop change.start rfl]
      · simp only [before, ↓reduceIte] at from_start to_stop ⊢
        have reached : ¬ other < change.start := by
          rcases @lookupFrom_start sec change.offset (some change.start) later with
            same | ⟨found, member, startIs, -⟩
          · exact not_lt.mpr (from_start _ same)
          · exact not_lt.mpr ((first found member).le.trans (from_start _ startIs))
        simp only [reached, ↓reduceIte]
        exact ih rest from_start to_stop

/-- Where a span stops the next one starts, after a change. -/
theorem lookupFrom_next
    (ordered : changes.Pairwise fun earlier later => earlier.start < later.start) {stop : ℤ}
    (stops : (lookupFrom sec offset start changes).stop = some stop) :
    (lookupFrom stop offset start changes).start = some stop ∧
      ⟨stop, (lookupFrom sec offset start changes).offset,
        (lookupFrom stop offset start changes).offset⟩ ∈ changesFrom offset changes := by
  induction changes generalizing offset start with
  | nil => cases stops
  | cons change later ih =>
      obtain ⟨first, rest⟩ := List.pairwise_cons.mp ordered
      simp only [lookupFrom] at stops ⊢
      by_cases before : sec < change.start
      · simp only [before, ↓reduceIte, Option.some.injEq] at stops ⊢
        subst stops
        obtain ⟨offsetIs, startIs⟩ := @lookupFrom_of_lt change.start change.offset
          (some change.start) later first
        simp only [lt_irrefl, ↓reduceIte, startIs, offsetIs, true_and]
        exact List.mem_cons_self
      · simp only [before, ↓reduceIte] at stops ⊢
        have reached : ¬ stop < change.start :=
          not_lt.mpr ((not_lt.mp before).trans (lookupFrom_stop stops).le)
        simp only [reached, ↓reduceIte]
        obtain ⟨startIs, member⟩ := ih rest stops
        exact ⟨startIs, List.mem_cons_of_mem _ member⟩

/-- A change is where the span before it stops. -/
theorem lookupFrom_stop_of_mem
    (ordered : changes.Pairwise fun earlier later => earlier.start < later.start)
    {change : ZoneTransition} (member : change ∈ changes) :
    (lookupFrom (change.start - 1) offset start changes).stop = some change.start := by
  induction changes generalizing offset start with
  | nil => cases member
  | cons head later ih =>
      obtain ⟨first, rest⟩ := List.pairwise_cons.mp ordered
      simp only [lookupFrom]
      rcases List.mem_cons.mp member with rfl | inLater
      · simp
      · have behind := first change inLater
        have reached : ¬ change.start - 1 < head.start := by omega
        simp only [reached, ↓reduceIte]
        exact ih rest inLater

/-- Spans are as long as the changes are apart. -/
theorem lookupFrom_length {gap : ℤ}
    (apart : changes.Pairwise fun earlier later => earlier.start + gap < later.start)
    (behind : ∀ first ∈ start, ∀ change ∈ changes, first + gap < change.start) {first stop : ℤ}
    (starts : (lookupFrom sec offset start changes).start = some first)
    (stops : (lookupFrom sec offset start changes).stop = some stop) : first + gap < stop := by
  induction changes generalizing offset start with
  | nil => cases stops
  | cons change later ih =>
      obtain ⟨head, rest⟩ := List.pairwise_cons.mp apart
      simp only [lookupFrom] at starts stops
      by_cases before : sec < change.start
      · simp only [before, ↓reduceIte, Option.some.injEq] at starts stops
        subst stops
        exact behind first starts change List.mem_cons_self
      · simp only [before, ↓reduceIte] at starts stops
        refine ih rest ?_ starts stops
        rintro _ ⟨⟩ other member
        exact head other member

/-- The offset of a span is the one at hand or that of a change. -/
theorem lookupFrom_offset :
    (lookupFrom sec offset start changes).offset ∈ offset :: changes.map ZoneTransition.offset := by
  induction changes generalizing offset start with
  | nil => exact List.mem_cons_self
  | cons change later ih =>
      simp only [lookupFrom]
      split
      · exact List.mem_cons_self
      · exact List.mem_cons_of_mem _ ih

end Spans

namespace Location

variable {loc : Location} {sec other stop : ℤ}

/-- The offsets of a location. -/
def offsets (loc : Location) : List ℤ :=
  loc.firstOffset :: loc.transitions.map ZoneTransition.offset

theorem lookup_offset (loc : Location) (sec : ℤ) : (loc.lookup sec).offset ∈ loc.offsets :=
  lookupFrom_offset

theorem lookup_eq (from_start : ∀ first ∈ (loc.lookup sec).start, first ≤ other)
    (to_stop : ∀ stop ∈ (loc.lookup sec).stop, other < stop) : loc.lookup other = loc.lookup sec :=
  lookupFrom_eq loc.ordered from_start to_stop

theorem lookup_start {first : ℤ} (starts : (loc.lookup sec).start = some first) :
    first ≤ sec ∧ (loc.lookup (first - 1)).stop = some first := by
  rcases @lookupFrom_start sec loc.firstOffset none loc.transitions with
    same | ⟨change, member, startIs, upTo⟩
  · exact absurd (starts.symm.trans same) (by simp)
  · obtain rfl : first = change.start := Option.some.inj (starts.symm.trans startIs)
    exact ⟨upTo, lookupFrom_stop_of_mem loc.ordered member⟩

theorem lookup_stop (stops : (loc.lookup sec).stop = some stop) :
    sec < stop ∧ (loc.lookup stop).start = some stop ∧
      ⟨stop, (loc.lookup sec).offset, (loc.lookup stop).offset⟩ ∈ loc.changes :=
  ⟨lookupFrom_stop stops, lookupFrom_next loc.ordered stops⟩

end Location

/-! ## Locations with few changes -/

/-- The clock of a location shows a reading. -/
def Location.Shows (loc : Location) (reading : ℤ) : Prop :=
  ∃ instant, instant + (loc.lookup instant).offset = reading

/-- The offsets of a location are bounded, and its changes are more than twice
the bound apart. -/
structure Location.Calm (loc : Location) (bound : ℤ) : Prop where
  bounded : ∀ offset ∈ loc.offsets, -bound ≤ offset ∧ offset ≤ bound
  apart : loc.transitions.Pairwise fun earlier later => earlier.start + 2 * bound < later.start

namespace Location.Calm

variable {loc : Location} {bound : ℤ}

theorem offset (calm : loc.Calm bound) (sec : ℤ) :
    -bound ≤ (loc.lookup sec).offset ∧ (loc.lookup sec).offset ≤ bound :=
  calm.bounded _ (loc.lookup_offset sec)

theorem length (calm : loc.Calm bound) {sec first stop : ℤ}
    (starts : (loc.lookup sec).start = some first) (stops : (loc.lookup sec).stop = some stop) :
    first + 2 * bound < stop :=
  lookupFrom_length calm.apart (fun _ impossible => by cases impossible) starts stops

end Location.Calm

/-- The offset that is chosen is one of the location. -/
theorem chooseOffset_mem (loc : Location) (unix : ℤ) : chooseOffset loc unix ∈ loc.offsets := by
  have own := loc.lookup_offset unix
  simp only [chooseOffset]
  split
  · rename_i zero
    rwa [zero] at own
  · split
    · exact loc.lookup_offset _
    · split
      · exact loc.lookup_offset _
      · exact own

section Shows

variable {loc : Location} {bound unix instant : ℤ}

/-- When a reading, taken as an instant, guesses to before its span, the clock showed
it in the span before. -/
theorem lookup_of_early (calm : loc.Calm bound)
    (shows : instant + (loc.lookup instant).offset = unix) {start : ℤ}
    (starts : (loc.lookup unix).start = some start)
    (early : unix - (loc.lookup unix).offset < start) :
    loc.lookup instant = loc.lookup (start - 1) := by
  have offsetOf := calm.offset instant
  have guessed := calm.offset unix
  obtain ⟨upTo, stops⟩ := loc.lookup_start starts
  have instantBefore : instant < start := by
    by_contra notBefore
    by_cases inside : ∀ stop ∈ (loc.lookup unix).stop, instant < stop
    · have same := loc.lookup_eq (fun first begins => by
        have := Option.some.inj (starts.symm.trans begins)
        omega) inside
      rw [same] at shows
      omega
    · push Not at inside
      obtain ⟨stop, stopIs, after⟩ := inside
      have long := calm.length starts stopIs
      omega
  refine loc.lookup_eq (fun earlier begins => ?_) fun stop ends => ?_
  · have long := calm.length begins stops
    omega
  · have := Option.some.inj (stops.symm.trans ends)
    omega

/-- When it guesses to behind its span, the clock shows the reading in the next one. -/
theorem lookup_of_late (calm : loc.Calm bound)
    (shows : instant + (loc.lookup instant).offset = unix) {stop : ℤ}
    (stops : (loc.lookup unix).stop = some stop)
    (late : stop ≤ unix - (loc.lookup unix).offset) : loc.lookup instant = loc.lookup stop := by
  have offsetOf := calm.offset instant
  have guessed := calm.offset unix
  obtain ⟨behind, starts, -⟩ := loc.lookup_stop stops
  have instantAfter : stop ≤ instant := by
    by_contra notAfter
    by_cases inside : ∀ start ∈ (loc.lookup unix).start, start ≤ instant
    · have same := loc.lookup_eq inside fun last ends => by
        have := Option.some.inj (stops.symm.trans ends)
        omega
      rw [same] at shows
      omega
    · push Not at inside
      obtain ⟨start, startIs, before⟩ := inside
      have long := calm.length startIs stops
      omega
  refine loc.lookup_eq (fun earlier begins => ?_) fun last ends => ?_
  · have := Option.some.inj (starts.symm.trans begins)
    omega
  · have long := calm.length starts ends
    omega

/-- **The offset that is chosen for a reading** is the one of an instant at which
the clock shows it, when there is one. -/
theorem chooseOffset_shows (calm : loc.Calm bound) (shown : loc.Shows unix) :
    unix - chooseOffset loc unix + (loc.lookup (unix - chooseOffset loc unix)).offset = unix := by
  obtain ⟨instant, shows⟩ := shown
  have isInstant : unix - (loc.lookup instant).offset = instant := by omega
  simp only [chooseOffset]
  split
  · -- the reading is taken as the instant, and the offset there is zero
    rename_i zero
    rw [sub_zero, zero, add_zero]
  · set first := (loc.lookup unix).offset with firstIs
    split
    · -- the guess falls before the span, so the clock showed the reading before it
      rename_i early
      cases starts : (loc.lookup unix).start with
      | none => simp [starts] at early
      | some start =>
          have before : unix - first < start := by simpa [starts] using early
          rw [Option.getD_some, ← lookup_of_early calm shows starts before, isInstant, shows]
    · rename_i notEarly
      split
      · -- the guess falls behind the span, so the clock shows the reading after it
        rename_i late
        cases stops : (loc.lookup unix).stop with
        | none => simp [stops] at late
        | some stop =>
            have behind : stop ≤ unix - first := by simpa [stops] using late
            rw [Option.getD_some, ← lookup_of_late calm shows stops behind, isInstant, shows]
      · -- the guess falls in the span
        rename_i notLate
        have same : loc.lookup (unix - first) = loc.lookup unix := by
          refine loc.lookup_eq (fun start begins => ?_) fun stop ends => ?_
          · simpa [Option.mem_def.mp begins] using notEarly
          · simpa [Option.mem_def.mp ends] using notLate
        rw [same, ← firstIs]
        omega

end Shows

/-! ## The reading of a time -/

namespace Time

/-- `t.In(loc)`: the same instant with the offset of the location. -/
def «in» (t : Time) (loc : Location) : Time :=
  ⟨t.sec, t.nsec, (loc.lookup t.sec).offset, t.nsec_lt⟩

/-- Which of two instants comes first. -/
def compare (first second : Time) : Ordering :=
  (Ord.compare first.sec second.sec).then (Ord.compare first.nsec second.nsec)

/-- Two times show the same date and time of day. -/
structure SameReading (t other : Time) : Prop where
  year : t.year = other.year
  month : t.month = other.month
  day : t.day = other.day
  hour : t.hour = other.hour
  minute : t.minute = other.minute
  second : t.second = other.second
  nanosecond : t.nanosecond = other.nanosecond

/-- Times show the same when their clocks have run for the same seconds. -/
theorem sameReading_iff {t other : Time} :
    SameReading t other ↔ t.wall = other.wall ∧ t.nsec = other.nsec := by
  constructor
  · intro same
    refine ⟨?_, Int.ofNat_inj.mp same.nanosecond⟩
    rw [← clockSeconds_reading t, ← clockSeconds_reading other, same.year, same.month,
      same.day, same.hour, same.minute, same.second]
  · rintro ⟨wall, nsec⟩
    constructor <;> simp only [year, month, day, civil, hour, minute, second, nanosecond, wall,
      nsec]

/-- **The fields of `time.Date`** carry into each other by what they count. -/
theorem date_fields (loc : Location) (year : ℤ) {month : ℕ} (day hour min sec : ℤ) {nsec : ℕ}
    (first : 1 ≤ month) (last : month ≤ 12) (below : nsec < 1000000000) :
    let unix := clockSeconds year month day hour min sec
    (date year month day hour min sec nsec loc).sec = unix - chooseOffset loc unix ∧
      (date year month day hour min sec nsec loc).nsec = nsec ∧
      (date year month day hour min sec nsec loc).offset =
        (loc.lookup (unix - chooseOffset loc unix)).offset := by
  intro unix
  have yearIs : year + ((month : ℤ) - 1) / 12 = year := by omega
  have monthIs : (((month : ℤ) - 1) % 12).toNat + 1 = month := by omega
  have secondIs : sec + (nsec : ℤ) / 1000000000 = sec := by omega
  have nanosecondIs : ((nsec : ℤ) % 1000000000).toNat = nsec := by omega
  have carried : clockSeconds year month (day + (hour + (min + sec / 60) / 60) / 24)
      ((hour + (min + sec / 60) / 60) % 24) ((min + sec / 60) % 60) (sec % 60) = unix := by
    simp only [unix, clockSeconds, Foundation.Calendar.dayNumber]
    omega
  simp only [date, norm, yearIs, monthIs, secondIs, nanosecondIs, carried, and_self]

/-- The date a time is made of has a month of the year. -/
theorem month_range (t : Time) : 1 ≤ t.month ∧ t.month ≤ 12 :=
  ⟨t.civil_exists.1, t.civil_exists.2.1⟩

end Time

end DawnPatrol.Go
