import DawnPatrol.Foundation.DecimalOrder
import Mathlib.Data.List.Sort

/-!
# The files of the migrations

`shmig` finds its migrations in a directory. The version of a migration is the
number its file name starts with, and its two sections stand between marker
lines.

`pending_migrations` sorts the paths and keeps those whose version is greater
than the last one recorded. The sort is asked to be numeric, but its key is the
path from its start, which is not a number, so all keys are equal and the paths
are compared as texts. With versions of ten digits, as the seconds since 1970
are, this is the order of the versions all the same
(`pendingMigrations_sorted`).
-/

set_option autoImplicit false

namespace DawnPatrol.Shmig

open Foundation

/-! ## Names and versions -/

/-- A file in the directory of the migrations. Its name is as `read` leaves it: it has no
backslash and no line feed. -/
structure MigrationFile where
  name : String
  lines : List String
  deriving DecidableEq

/-- A hyphen, a title, and the extension. -/
def isTitle (text : List Char) : Bool :=
  text.head? == some '-' && ".sql".toList.isSuffixOf text.tail

namespace MigrationFile

variable (file : MigrationFile)

/-- `migration_version`: the name up to its first hyphen. -/
def version : List Char := file.name.toList.takeWhile (· ≠ '-')

/-- The version as a number: `int` of the name, in `awk`. -/
def number : ℕ := Decimal.number file.name.toList

/-- The name matches `^[0-9]+-.*\.sql$`. -/
def IsMigration : Prop :=
  Decimal.digits file.name.toList ≠ [] ∧
    isTitle (file.name.toList.dropWhile Char.isDigit) = true

instance : Decidable file.IsMigration := inferInstanceAs (Decidable (_ ∧ _))

/-- The name matches the pattern `<version>-*.sql`. -/
def IsNamed (version : List Char) : Prop :=
  version <+: file.name.toList ∧ isTitle (file.name.toList.drop version.length) = true

instance (version : List Char) : Decidable (file.IsNamed version) :=
  inferInstanceAs (Decidable (_ ∧ _))

end MigrationFile

section Names

variable {file : MigrationFile}

/-- A name starts with its digits. -/
theorem digits_append_rest (file : MigrationFile) :
    Decimal.digits file.name.toList ++ file.name.toList.dropWhile Char.isDigit =
      file.name.toList :=
  List.takeWhile_append_dropWhile

theorem head_of_isTitle {text : List Char} (titled : isTitle text = true) :
    ∃ title, text = '-' :: title := by
  simp only [isTitle, Bool.and_eq_true, beq_iff_eq] at titled
  exact List.head?_eq_some_iff.mp titled.1

/-- The version of a migration is its digits. -/
theorem version_eq (migration : file.IsMigration) :
    file.version = Decimal.digits file.name.toList := by
  obtain ⟨-, titled⟩ := migration
  obtain ⟨title, rest⟩ := head_of_isTitle titled
  have noHyphen : ∀ c ∈ Decimal.digits file.name.toList, decide (c ≠ '-') = true := by
    intro c member
    have digit := Decimal.isDigit_of_mem_digits member
    rw [decide_eq_true_eq]
    rintro rfl
    exact absurd digit (by decide)
  calc file.version
      = (Decimal.digits file.name.toList ++ '-' :: title).takeWhile (· ≠ '-') := by
        rw [MigrationFile.version, ← rest, digits_append_rest]
    _ = Decimal.digits file.name.toList := by
        rw [List.takeWhile_append_of_pos noHyphen]
        simp

end Names

/-! ## Sections -/

/-- The markers of the two sections. -/
def upMark : String := "====  UP  ===="

def downMark : String := "==== DOWN ===="

/-- The lines that `sed` prints for a range of two lines. After the end of a range
another may begin. -/
def sedRange (since till : String) (inside : Bool) : List String → List String
  | [] => []
  | line :: lines =>
      if inside then line :: sedRange since till (line != till) lines
      else if line = since then line :: sedRange since till true lines
      else sedRange since till false lines

/-- Some character of the text is none of a blank, a backslash and a `t`, as
`[^ \t]` means to `grep`. -/
def hasText (lines : List String) : Bool :=
  lines.any fun line => line.toList.any fun c => c != ' ' && c != '\\' && c != 't'

/-- The lines of a section, unless they have no text. -/
def withText (lines : List String) : Option (List String) :=
  if hasText lines then some lines else none

/-- A line is not a comment. -/
def isCode (line : String) : Bool := !"--".toList.isPrefixOf line.toList

/-- `migration_section`: the lines between two markers, without comments, unless
they have no text. -/
def migrationSection (file : MigrationFile) (since till : String) : Option (List String) :=
  withText ((sedRange ("-- " ++ since) ("-- " ++ till) false file.lines).filter isCode)

/-- A file with a header and two sections. -/
def MigrationFile.ofSections (name : String) (header up down : List String) : MigrationFile where
  name := name
  lines := header ++ ("-- " ++ upMark) :: (up ++ ("-- " ++ downMark) :: down)

section Sections

variable {since till : String}

/-- Nothing is printed before the first line of a range. -/
theorem sedRange_before {before : List String} (absent : since ∉ before) (rest : List String) :
    sedRange since till false (before ++ rest) = sedRange since till false rest := by
  induction before with
  | nil => rfl
  | cons line before ih =>
      obtain ⟨other, absent⟩ := not_or.mp (mt List.mem_cons.mpr absent)
      simp only [List.cons_append, sedRange, Bool.false_eq_true, if_false, if_neg (Ne.symm other),
        ih absent]

/-- A range goes on up to its last line. -/
theorem sedRange_inside {inside : List String} (absent : till ∉ inside) (rest : List String) :
    sedRange since till true (inside ++ rest) = inside ++ sedRange since till true rest := by
  induction inside with
  | nil => rfl
  | cons line inside ih =>
      obtain ⟨other, absent⟩ := not_or.mp (mt List.mem_cons.mpr absent)
      have goesOn : (line != till) = true := bne_iff_ne.mpr (Ne.symm other)
      simp only [List.cons_append, sedRange, if_true, goesOn, ih absent]

theorem sedRange_first (rest : List String) :
    sedRange since till false (since :: rest) = since :: sedRange since till true rest := by
  simp [sedRange]

theorem sedRange_last (rest : List String) :
    sedRange since till true (till :: rest) = till :: sedRange since till false rest := by
  simp [sedRange]

variable {name : String} {header up down : List String}

/-- The markers stand at the sections only. -/
structure MarkedOnce (header up down : List String) : Prop where
  noUp : "-- " ++ upMark ∉ header ++ up ++ down
  noDown : "-- " ++ downMark ∉ header ++ up ++ down

/-- **`migration_section` reads back the first section**, without its comments. -/
theorem migrationSection_up (marked : MarkedOnce header up down) :
    migrationSection (.ofSections name header up down) upMark downMark =
      withText (up.filter isCode) := by
  have noUp := marked.noUp
  have noDown := marked.noDown
  simp only [List.mem_append, not_or] at noUp noDown
  have none : sedRange ("-- " ++ upMark) ("-- " ++ downMark) false down = [] := by
    rw [← List.append_nil down, sedRange_before noUp.2]
    rfl
  simp only [migrationSection, MigrationFile.ofSections]
  rw [sedRange_before noUp.1.1, sedRange_first, sedRange_inside noDown.1.2, sedRange_last, none,
    List.filter_cons_of_neg (by decide), List.filter_append, List.filter_cons_of_neg (by decide),
    List.filter_nil, List.append_nil]

/-- **`migration_section` reads back the second section**, without its comments. -/
theorem migrationSection_down (marked : MarkedOnce header up down) :
    migrationSection (.ofSections name header up down) downMark upMark =
      withText (down.filter isCode) := by
  have noUp := marked.noUp
  have noDown := marked.noDown
  simp only [List.mem_append, not_or] at noUp noDown
  have notFirst : "-- " ++ downMark ∉ header ++ ("-- " ++ upMark) :: up := by
    simp only [List.mem_append, List.mem_cons, not_or]
    exact ⟨noDown.1.1, by decide, noDown.1.2⟩
  have all : sedRange ("-- " ++ downMark) ("-- " ++ upMark) true down = down := by
    rw [← List.append_nil down, sedRange_inside noUp.2]
    rfl
  simp only [migrationSection, MigrationFile.ofSections]
  rw [← List.cons_append, ← List.append_assoc, sedRange_before notFirst, sedRange_first, all,
    List.filter_cons_of_neg (by decide)]

end Sections

/-! ## The directory -/

/-- The directory of the migrations, in the order in which `find` lists it. -/
structure MigrationsDirectory where
  files : List MigrationFile
  names : (files.map MigrationFile.name).Nodup

namespace MigrationsDirectory

/-- All versions are numbers of ten digits, as those are that `create` makes. -/
def TenDigits (directory : MigrationsDirectory) : Prop :=
  ∀ file ∈ directory.files, file.IsMigration →
    (Decimal.digits file.name.toList).length = 10 ∧
      (Decimal.digits file.name.toList).head? ≠ some '0'

instance (directory : MigrationsDirectory) : Decidable directory.TenDigits :=
  inferInstanceAs (Decidable (∀ _ ∈ _, _))

end MigrationsDirectory

/-- The loop of `awk` over the sorted names: it prints those of migrations after
the last one, and counts a limit down. -/
def awkPending (last : ℤ) (limit : ℤ) : List MigrationFile → List MigrationFile
  | [] => []
  | file :: files =>
      if limit ≠ 0 ∧ file.IsMigration ∧ last < file.number then
        file :: if limit - 1 = 0 then [] else awkPending last (limit - 1) files
      else awkPending last limit files

/-- `pending_migrations`: the first of the migrations after the last one, or all of
them, sorted by name. -/
def pendingMigrations (directory : MigrationsDirectory) (last : ℤ) (limit : Option ℕ) :
    List MigrationFile :=
  awkPending last (limit.elim (-1) fun n => n)
    (directory.files.insertionSort fun first second => first.name ≤ second.name)

/-- A version as `to_char(version, '0000000000')` writes it, with a place for the
sign. -/
def toChar (version : ℤ) : List Char :=
  let digits := Nat.toDigits 10 version.natAbs
  (if version < 0 then '-' else ' ') :: (List.replicate (10 - digits.length) '0' ++ digits)

/-- `read` takes the blank away. -/
def readVersion (version : ℤ) : List Char := (toChar version).dropWhile (· = ' ')

/-- `previous_migrations`: the files of some versions, up to the first version that
has none. -/
def previousMigrations (directory : MigrationsDirectory) : List ℤ → List MigrationFile
  | [] => []
  | version :: versions =>
      let found := directory.files.filter fun file => file.IsNamed (readVersion version)
      if found = [] then [] else found ++ previousMigrations directory versions

/-! ## What is pending -/

/-- The first of a list, or all of it. -/
def atMost {α : Type} (limit : Option ℕ) (all : List α) : List α :=
  limit.elim all fun n => all.take n

/-- A count that starts below zero stops nothing. -/
theorem awkPending_of_neg (last : ℤ) {limit : ℤ} (below : limit < 0)
    (files : List MigrationFile) :
    awkPending last limit files =
      files.filter fun file => file.IsMigration ∧ last < file.number := by
  induction files generalizing limit with
  | nil => rfl
  | cons file files ih =>
      have notZero : limit ≠ 0 := by omega
      have notOne : limit - 1 ≠ 0 := by omega
      by_cases pending : file.IsMigration ∧ last < file.number
      · rw [awkPending, if_pos ⟨notZero, pending⟩, if_neg notOne, ih (by omega),
          List.filter_cons_of_pos (by simpa using pending)]
      · rw [awkPending, if_neg fun holds => pending holds.2, ih below,
          List.filter_cons_of_neg (by simpa using pending)]

/-- A count that starts above zero ends the loop. -/
theorem awkPending_of_nat (last : ℤ) (limit : ℕ) (files : List MigrationFile) :
    awkPending last limit files =
      (files.filter fun file => file.IsMigration ∧ last < file.number).take limit := by
  induction files generalizing limit with
  | nil => simp [awkPending]
  | cons file files ih =>
      by_cases pending : file.IsMigration ∧ last < file.number
      · rw [List.filter_cons_of_pos (by simpa using pending)]
        cases limit with
        | zero =>
            have skip := ih 0
            rw [List.take_zero] at skip ⊢
            rw [awkPending, if_neg fun holds => holds.1 rfl]
            exact skip
        | succ limit =>
            have next : ((limit + 1 : ℕ) : ℤ) - 1 = limit := by omega
            rw [awkPending, if_pos ⟨by omega, pending⟩, next, List.take_succ_cons, ← ih]
            split
            · rename_i zero
              rw [ih, show limit = 0 by omega, List.take_zero]
            · rfl
      · rw [awkPending, if_neg fun holds => pending holds.2, ih,
          List.filter_cons_of_neg (by simpa using pending)]

/-- The first of the migrations after the last one, in the order of their names. -/
theorem pendingMigrations_eq (directory : MigrationsDirectory) (last : ℤ) (limit : Option ℕ) :
    pendingMigrations directory last limit = atMost limit
      ((directory.files.insertionSort fun first second => first.name ≤ second.name).filter
        fun file => file.IsMigration ∧ last < file.number) := by
  cases limit with
  | none => exact awkPending_of_neg last (by decide) _
  | some limit => exact awkPending_of_nat last limit _

/-- The migrations after the last one, without a limit. -/
theorem mem_pendingMigrations {directory : MigrationsDirectory} {last : ℤ} {file : MigrationFile} :
    file ∈ pendingMigrations directory last none ↔
      file ∈ directory.files ∧ file.IsMigration ∧ last < file.number := by
  simp [pendingMigrations_eq, atMost]

theorem atMost_sublist {α : Type} (limit : Option ℕ) (all : List α) :
    (atMost limit all).Sublist all := by
  cases limit with
  | none => exact List.Sublist.refl _
  | some n => exact List.take_sublist n all

/-- **What is pending comes in the order of the versions**, when these have ten
digits. -/
theorem pendingMigrations_sorted {directory : MigrationsDirectory} (ten : directory.TenDigits)
    (last : ℤ) (limit : Option ℕ) :
    (pendingMigrations directory last limit).Pairwise fun first second =>
      first.number ≤ second.number := by
  rw [pendingMigrations_eq]
  refine List.Pairwise.sublist (atMost_sublist _ _) ?_
  have byName := (List.pairwise_insertionSort
    (fun first second : MigrationFile => first.name ≤ second.name) directory.files).filter
      (fun file => file.IsMigration ∧ last < file.number)
  refine byName.imp_of_mem fun {first second} firstMember secondMember le => ?_
  have migration : ∀ {file}, file ∈ (directory.files.insertionSort fun first second =>
      first.name ≤ second.name).filter (fun file => file.IsMigration ∧ last < file.number) →
        (Decimal.digits file.name.toList).length = 10 := by
    intro file member
    obtain ⟨listed, pending⟩ := List.mem_filter.mp member
    exact (ten file ((List.mem_insertionSort _).mp listed) (of_decide_eq_true pending).1).1
  exact Decimal.number_le_of_le ((migration firstMember).trans (migration secondMember).symm) le

end DawnPatrol.Shmig
