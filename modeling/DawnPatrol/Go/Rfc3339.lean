import DawnPatrol.Foundation.JsonText
import DawnPatrol.Go.Time
import Mathlib.Data.List.DropRight

/-!
# Times as text

The form in which `time.Time` marshals itself, RFC 3339 with a fraction of as
many digits as are needed, and the reader of that form. The offset is written
in hours and minutes, so a time is read back as it was exactly when its offset
is a number of whole minutes of less than a hundred hours
(`parseTime_rfc3339Nano`).
-/

set_option autoImplicit false

namespace DawnPatrol.Go

open Foundation Foundation.Calendar

/-! ## Writing -/

/-- `appendInt`: decimal digits, with zeros in front up to a width. -/
def padded (width n : ℕ) : List Char :=
  List.replicate (width - (Nat.toDigits 10 n).length) '0' ++ Nat.toDigits 10 n

/-- The fraction of a second, without the zeros at its end. -/
def fractionText (nsec : ℕ) : List Char :=
  match (padded 9 nsec).rdropWhile (· == '0') with
  | [] => []
  | digits => '.' :: digits

/-- The offset in minutes, towards zero. -/
def zoneMinutes (offset : ℤ) : ℤ := if offset < 0 then -(-offset / 60) else offset / 60

/-- The offset of a time. -/
def zoneText (offset : ℤ) : List Char :=
  if offset = 0 then ['Z']
  else
    let minutes := (zoneMinutes offset).natAbs
    (if zoneMinutes offset < 0 then '-' else '+') ::
      (padded 2 (minutes / 60) ++ ':' :: padded 2 (minutes % 60))

/-- A time in the layout `2006-01-02T15:04:05.999999999Z07:00`, for the years from
0 to 9999. -/
def Time.rfc3339Nano (t : Time) : List Char :=
  padded 4 t.year.toNat ++ '-' :: (padded 2 t.month ++ '-' :: (padded 2 t.day.toNat ++
    'T' :: (padded 2 t.hour.toNat ++ ':' :: (padded 2 t.minute.toNat ++ ':' ::
      (padded 2 t.second.toNat ++ (fractionText t.nsec ++ zoneText t.offset))))))

/-! ## Reading -/

/-- A fixed number of digits. -/
def readFixed (width : ℕ) (text : List Char) : Option (ℕ × List Char) :=
  let digits := text.take width
  if digits.length = width ∧ digits.all Char.isDigit then
    some (Nat.ofDigitChars 10 digits 0, text.drop width)
  else none

/-- A fixed number of digits after a separator. -/
def readAfter (separator : Char) (width : ℕ) : List Char → Option (ℕ × List Char)
  | c :: text => if c = separator then readFixed width text else none
  | [] => none

/-- A fraction of up to nine digits, in nanoseconds. -/
def readFraction : List Char → Option (ℕ × List Char)
  | '.' :: text =>
      let digits := text.takeWhile Char.isDigit
      if digits = [] ∨ 9 < digits.length then none
      else some (Nat.ofDigitChars 10 digits 0 * 10 ^ (9 - digits.length),
        text.dropWhile Char.isDigit)
  | text => some (0, text)

/-- The offset after a sign. -/
def readOffset (text : List Char) : Option (ℤ × List Char) := do
  let (hours, text) ← readFixed 2 text
  let (minutes, text) ← readAfter ':' 2 text
  return ((((hours * 60 + minutes) * 60 : ℕ) : ℤ), text)

/-- The offset of a time. -/
def readZone : List Char → Option (ℤ × List Char)
  | 'Z' :: text => some (0, text)
  | '+' :: text => readOffset text
  | '-' :: text => (readOffset text).map fun read => (-read.1, read.2)
  | _ => none

/-- A time in the layout `2006-01-02T15:04:05Z07:00`, with a fraction or without. -/
def parseTime (text : List Char) : Option Time := do
  let (year, text) ← readFixed 4 text
  let (month, text) ← readAfter '-' 2 text
  let (day, text) ← readAfter '-' 2 text
  let (hour, text) ← readAfter 'T' 2 text
  let (minute, text) ← readAfter ':' 2 text
  let (second, text) ← readAfter ':' 2 text
  let (nsec, text) ← readFraction text
  let (offset, text) ← readZone text
  if inRange : (1 ≤ month ∧ month ≤ 12 ∧ 1 ≤ day ∧ (day : ℤ) ≤ daysIn year month) ∧
      (hour < 24 ∧ minute < 60 ∧ second < 60 ∧ nsec < 1000000000) ∧ text = [] then
    some ⟨Time.clockSeconds year month day hour minute second - offset, nsec, offset,
      inRange.2.1.2.2.2⟩
  else none

/-! ## Numbers of a fixed width -/

theorem padded_spec {width n : ℕ} (pos : 0 < width) (small : n < 10 ^ width) :
    (padded width n).length = width ∧ (∀ c ∈ padded width n, c.isDigit = true) ∧
      Nat.ofDigitChars 10 (padded width n) 0 = n := by
  have short := (Nat.length_toDigits_le_iff (by decide) pos).mpr small
  refine ⟨?_, ?_, ?_⟩
  · simp only [padded, List.length_append, List.length_replicate]
    omega
  · intro c member
    rcases List.mem_append.mp member with zero | digit
    · rw [List.eq_of_mem_replicate zero]
      decide
    · exact Json.isDigit_of_mem_toDigits n digit
  · rw [padded, Nat.ofDigitChars_append, Nat.ofDigitChars_replicate_zero, Nat.mul_zero,
      Nat.ofDigitChars_ten_toDigits]

theorem readFixed_append {width : ℕ} {digits : List Char} (length : digits.length = width)
    (all : ∀ c ∈ digits, c.isDigit = true) (rest : List Char) :
    readFixed width (digits ++ rest) = some (Nat.ofDigitChars 10 digits 0, rest) := by
  have taken : (digits ++ rest).take width = digits := by simp [← length]
  have dropped : (digits ++ rest).drop width = rest := by simp [← length]
  have holds : digits.length = width ∧ digits.all Char.isDigit = true :=
    ⟨length, List.all_eq_true.mpr all⟩
  simp only [readFixed, taken, dropped, if_pos holds]

theorem readFixed_padded (width : ℕ) {n : ℕ} (pos : 0 < width) (small : n < 10 ^ width)
    (rest : List Char) : readFixed width (padded width n ++ rest) = some (n, rest) := by
  obtain ⟨length, all, value⟩ := padded_spec pos small
  rw [readFixed_append length all, value]

theorem readAfter_padded (width : ℕ) {n : ℕ} (pos : 0 < width) (small : n < 10 ^ width)
    (separator : Char) (rest : List Char) :
    readAfter separator width (separator :: (padded width n ++ rest)) = some (n, rest) := by
  simp only [readAfter, ↓reduceIte, readFixed_padded width pos small]

/-! ## Fractions -/

/-- A zone starts with a letter or a sign. -/
theorem zoneText_starts (offset : ℤ) :
    ∃ c more, zoneText offset = c :: more ∧ (c = 'Z' ∨ c = '+' ∨ c = '-') := by
  unfold zoneText
  split
  · exact ⟨'Z', [], rfl, .inl rfl⟩
  · split
    · exact ⟨'-', _, rfl, .inr (.inr rfl)⟩
    · exact ⟨'+', _, rfl, .inr (.inl rfl)⟩

/-- The fraction of a time is read back. -/
theorem readFraction_fractionText {nsec : ℕ} (small : nsec < 1000000000) (offset : ℤ) :
    readFraction (fractionText nsec ++ zoneText offset) = some (nsec, zoneText offset) := by
  obtain ⟨c, more, starts, zone⟩ := zoneText_starts offset
  have notDigit : c.isDigit = false := by rcases zone with rfl | rfl | rfl <;> decide
  obtain ⟨length, all, value⟩ := @padded_spec 9 nsec (by decide) small
  set kept := (padded 9 nsec).rdropWhile (· == '0') with keptIs
  set zeros := (padded 9 nsec).rtakeWhile (· == '0') with zerosIs
  have parts : kept ++ zeros = padded 9 nsec := List.rdropWhile_append_rtakeWhile
  have zerosAre : zeros = List.replicate zeros.length '0' := by
    refine List.eq_replicate_of_mem fun d member => ?_
    simpa using List.mem_rtakeWhile_imp member
  have lengths : kept.length + zeros.length = 9 := by rw [← List.length_append, parts, length]
  have keptDigits : ∀ d ∈ kept, d.isDigit = true := fun d member =>
    all d (parts ▸ List.mem_append_left _ member)
  have scaled : Nat.ofDigitChars 10 kept 0 * 10 ^ (9 - kept.length) = nsec := by
    rw [← value, ← parts, Nat.ofDigitChars_append, zerosAre, Nat.ofDigitChars_replicate_zero,
      Nat.mul_comm, show 9 - kept.length = zeros.length by omega]
  by_cases nothing : kept = []
  · have noFraction : fractionText nsec = [] := by rw [fractionText, ← keptIs, nothing]
    have zero : nsec = 0 := by
      rw [nothing] at scaled
      simpa using scaled.symm
    rw [noFraction, List.nil_append, starts, readFraction]
    · rw [zero]
    · rintro text same
      obtain rfl : c = '.' := (List.cons.inj same).1
      exact absurd zone (by decide)
  · have fraction : fractionText nsec = '.' :: kept := by
      obtain ⟨d, digits, keptCons⟩ := List.exists_cons_of_ne_nil nothing
      rw [fractionText, ← keptIs, keptCons]
    have ends : Json.EndsNumber (zoneText offset) := by
      rw [starts]
      intro d member
      obtain rfl : c = d := by simpa using member
      exact notDigit
    obtain ⟨taken, dropped⟩ := Json.takeWhile_digits keptDigits ends
    have fits : ¬ (kept = [] ∨ 9 < kept.length) := by
      rintro (none | long)
      · exact nothing none
      · omega
    rw [fraction, List.cons_append]
    simp only [readFraction, taken, dropped, if_neg fits, scaled]

/-! ## Offsets -/

/-- Whether an offset is written in full: in whole minutes, and in two digits of
hours. -/
def InMinutes (offset : ℤ) : Prop := offset % 60 = 0 ∧ offset.natAbs < 360000

instance (offset : ℤ) : Decidable (InMinutes offset) :=
  inferInstanceAs (Decidable (_ ∧ _))

theorem readOffset_padded {hours minutes : ℕ} (fewHours : hours < 100)
    (fewMinutes : minutes < 100) :
    readOffset (padded 2 hours ++ ':' :: padded 2 minutes) =
      some ((((hours * 60 + minutes) * 60 : ℕ) : ℤ), []) := by
  have hoursRead := readFixed_padded 2 (by decide) fewHours (':' :: padded 2 minutes)
  have minutesRead := readAfter_padded 2 (by decide) fewMinutes ':' []
  rw [List.append_nil] at minutesRead
  simp only [readOffset, hoursRead, minutesRead, Option.bind_eq_bind, Option.bind_some]
  rfl

/-- Three digits of hours are not read. -/
theorem readOffset_of_long {hours : ℕ} (many : 100 ≤ hours) (rest : List Char) :
    readOffset (padded 2 hours ++ rest) = none := by
  have long : 2 < (Nat.toDigits 10 hours).length := by
    by_contra short
    have := (Nat.length_toDigits_le_iff (by decide) (by decide)).mp (Nat.le_of_not_lt short)
    omega
  have digits : padded 2 hours = Nat.toDigits 10 hours := by
    rw [padded, Nat.sub_eq_zero_of_le long.le]
    rfl
  obtain ⟨a, b, c, more, split⟩ : ∃ a b c more, Nat.toDigits 10 hours = a :: b :: c :: more := by
    generalize Nat.toDigits 10 hours = written at long
    rcases written with _ | ⟨a, _ | ⟨b, _ | ⟨c, more⟩⟩⟩
    · simp at long
    · simp at long
    · simp at long
    · exact ⟨a, b, c, more, rfl⟩
  have digit : ∀ d ∈ a :: b :: c :: more, d.isDigit = true := fun d member =>
    Json.isDigit_of_mem_toDigits hours (split ▸ member)
  have third : c ≠ ':' := by
    rintro rfl
    exact absurd (digit ':' (by simp)) (by decide)
  have hoursRead := @readFixed_append 2 [a, b] rfl
    (fun d member => digit d (by
      simp only [List.mem_cons, List.not_mem_nil, or_false] at member ⊢
      tauto)) (c :: (more ++ rest))
  rw [digits, split]
  simp only [List.cons_append, List.nil_append] at hoursRead ⊢
  simp only [readOffset, hoursRead, Option.bind_eq_bind, Option.bind_some, readAfter, third,
    ↓reduceIte, Option.bind_none]

/-- An offset of less than a hundred hours is read as its whole minutes. -/
theorem readZone_of_short {offset : ℤ} (short : (zoneMinutes offset).natAbs < 6000) :
    readZone (zoneText offset) = some (zoneMinutes offset * 60, []) := by
  unfold zoneText
  split
  · rename_i utc
    rw [utc]
    rfl
  · have read := @readOffset_padded ((zoneMinutes offset).natAbs / 60)
      ((zoneMinutes offset).natAbs % 60) (by omega) (by omega)
    split
    · rename_i west
      simp only [readZone, read, Option.map_some, Option.some.injEq, Prod.mk.injEq, and_true]
      omega
    · rename_i east
      simp only [readZone, read, Option.some.injEq, Prod.mk.injEq, and_true]
      omega

/-- An offset of a hundred hours or more is not read. -/
theorem readZone_of_long {offset : ℤ} (long : 6000 ≤ (zoneMinutes offset).natAbs) :
    readZone (zoneText offset) = none := by
  have unread := @readOffset_of_long ((zoneMinutes offset).natAbs / 60) (by omega)
    (':' :: padded 2 ((zoneMinutes offset).natAbs % 60))
  unfold zoneText
  split
  · rename_i utc
    simp [utc, zoneMinutes] at long
  · split <;> simp only [readZone, unread, Option.map_none]

/-- The offset that is read is the one that was written exactly when it was
written in full. -/
theorem zoneMinutes_eq_iff {offset : ℤ} :
    ((zoneMinutes offset).natAbs < 6000 ∧ zoneMinutes offset * 60 = offset) ↔ InMinutes offset := by
  simp only [zoneMinutes, InMinutes]
  split <;> omega

/-! ## Times -/

/-- The fields of the clock are read, and then the zone decides. -/
theorem parseTime_fields (t : Time) (year : 0 ≤ t.year ∧ t.year ≤ 9999) :
    parseTime t.rfc3339Nano =
      match readZone (zoneText t.offset) with
      | some (offset, []) => some ⟨t.wall - offset, t.nsec, offset, t.nsec_lt⟩
      | _ => none := by
  obtain ⟨firstMonth, lastMonth, firstDay, lastDay⟩ := t.civil_exists
  change 1 ≤ t.month at firstMonth
  change t.month ≤ 12 at lastMonth
  change 1 ≤ t.day at firstDay
  change t.day ≤ daysIn t.year t.month at lastDay
  have longest := daysIn_le t.year lastMonth
  have hour := t.hour_range
  have minute := t.minute_range
  have second := t.second_range
  have readYear := @readFixed_padded 4 t.year.toNat (by decide) (by omega)
  have readMonth := @readAfter_padded 2 t.month (by decide) (by omega) '-'
  have readDay := @readAfter_padded 2 t.day.toNat (by decide) (by omega) '-'
  have readHour := @readAfter_padded 2 t.hour.toNat (by decide) (by omega) 'T'
  have readMinute := @readAfter_padded 2 t.minute.toNat (by decide) (by omega) ':'
  have readSecond := @readAfter_padded 2 t.second.toNat (by decide) (by omega) ':'
  simp only [parseTime, Time.rfc3339Nano, readYear, readMonth, readDay, readHour, readMinute,
    readSecond, readFraction_fractionText t.nsec_lt, Option.bind_eq_bind, Option.bind_some]
  have yearIs : (t.year.toNat : ℤ) = t.year := by omega
  have dayIs : (t.day.toNat : ℤ) = t.day := by omega
  have hourIs : (t.hour.toNat : ℤ) = t.hour := by omega
  have minuteIs : (t.minute.toNat : ℤ) = t.minute := by omega
  have secondIs : (t.second.toNat : ℤ) = t.second := by omega
  have clock := t.clockSeconds_reading
  cases readZone (zoneText t.offset) with
  | none => rfl
  | some read =>
      obtain ⟨offset, rest⟩ := read
      cases rest with
      | cons c rest => simp
      | nil =>
          simp only [Option.bind_some, yearIs, dayIs, hourIs, minuteIs, secondIs, clock]
          exact dif_pos ⟨⟨firstMonth, lastMonth, by omega, lastDay⟩,
            ⟨by omega, by omega, by omega, t.nsec_lt⟩, trivial⟩

/-- **A time is read back** as it was when its offset is written in full, and
never otherwise. -/
theorem parseTime_rfc3339Nano (t : Time) (year : 0 ≤ t.year ∧ t.year ≤ 9999) :
    parseTime t.rfc3339Nano = some t ↔ InMinutes t.offset := by
  rw [parseTime_fields t year, ← zoneMinutes_eq_iff]
  by_cases short : (zoneMinutes t.offset).natAbs < 6000
  · rw [readZone_of_short short]
    simp only [short, true_and, Option.some.injEq]
    constructor
    · exact fun same => congrArg Time.offset same
    · intro same
      ext
      · simp only [same, Time.wall]
        omega
      · rfl
      · exact same
  · rw [readZone_of_long (not_lt.mp short)]
    simp [short]

/-! ## Characters of a time -/

section Characters

variable {c : Char} (notDigit : c.isDigit = false)
include notDigit

theorem not_mem_padded (width n : ℕ) : c ∉ padded width n := by
  intro member
  rcases List.mem_append.mp member with zero | digit
  · rw [List.eq_of_mem_replicate zero] at notDigit
    cases notDigit
  · rw [Json.isDigit_of_mem_toDigits n digit] at notDigit
    cases notDigit

theorem not_mem_fractionText (notDot : c ≠ '.') (nsec : ℕ) : c ∉ fractionText nsec := by
  have digits := not_mem_padded notDigit 9 nsec
  unfold fractionText
  split
  · simp
  · rename_i kept
    intro member
    rcases List.mem_cons.mp member with dot | inside
    · exact notDot dot
    · exact digits ((List.rdropWhile_prefix _ _).subset inside)

/-- The text of a time consists of digits and of the marks between them. -/
theorem not_mem_rfc3339Nano (notMark : c ∉ "-T:.Z+".toList) (t : Time) : c ∉ t.rfc3339Nano := by
  obtain ⟨minus, letterT, colon, dot, letterZ, plus⟩ :
      c ≠ '-' ∧ c ≠ 'T' ∧ c ≠ ':' ∧ c ≠ '.' ∧ c ≠ 'Z' ∧ c ≠ '+' := by
    simpa using notMark
  have zone : c ∉ zoneText t.offset := by
    unfold zoneText
    split
    · simpa using letterZ
    · split <;> simp [minus, plus, colon, not_mem_padded notDigit]
  simp [Time.rfc3339Nano, minus, letterT, colon, zone, not_mem_padded notDigit,
    not_mem_fractionText notDigit dot]

end Characters

end DawnPatrol.Go
