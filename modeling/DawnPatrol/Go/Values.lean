import Mathlib.Data.List.Basic

/-!
# Errors, panics and case mapping of strings

The values the program fails with, and the two functions of package `strings`
it calls. `ToLower` and `ToUpper` map the Unicode tables over a string. The
tables are a parameter that is known on ASCII.
-/

set_option autoImplicit false

namespace DawnPatrol.Go

/-- An error value. `recordNotFound` is gorm's `ErrRecordNotFound`, which is
recognised by identity and not by its text. -/
inductive GoError where
  | recordNotFound
  | other (message : String)
  deriving DecidableEq, Repr

/-- The text of an error. -/
def GoError.error : GoError → String
  | recordNotFound => "record not found"
  | other message => message

/-- A value that is panicked with. The runtime panics with errors of its own,
for a nil dereference and for a type assertion that does not hold. -/
inductive PanicValue where
  | error (err : GoError)
  | string (text : String)
  | nilDereference
  | typeAssertion (message : String)
  deriving DecidableEq, Repr

/-- Whether the dynamic type of a panic value implements `error`. -/
def PanicValue.isError : PanicValue → Bool
  | string _ => false
  | _ => true

/-- The case mapping tables of package `unicode`. -/
structure Unicode where
  toLower : Char → Char
  toUpper : Char → Char
  toLower_ascii : ∀ c : Char, c.toNat < 128 → toLower c = c.toLower
  toUpper_ascii : ∀ c : Char, c.toNat < 128 → toUpper c = c.toUpper

/-- Tables that leave everything beyond ASCII alone. -/
def Unicode.asciiOnly : Unicode where
  toLower := Char.toLower
  toUpper := Char.toUpper
  toLower_ascii _ _ := rfl
  toUpper_ascii _ _ := rfl

/-- `strings.ToLower`. -/
def Unicode.lower (unicode : Unicode) (s : String) : String :=
  String.ofList (s.toList.map unicode.toLower)

/-- `strings.ToUpper`. -/
def Unicode.upper (unicode : Unicode) (s : String) : String :=
  String.ofList (s.toList.map unicode.toUpper)

/-- The strings of ASCII characters. -/
def IsAscii (s : String) : Prop := ∀ c ∈ s.toList, c.toNat < 128

instance (s : String) : Decidable (IsAscii s) := List.decidableBAll _ _

/-- ASCII strings have the same lower case in all tables. -/
theorem Unicode.lower_of_ascii (unicode : Unicode) {s : String} (ascii : IsAscii s) :
    unicode.lower s = Unicode.asciiOnly.lower s := by
  simp only [Unicode.lower]
  refine congrArg String.ofList (List.map_congr_left fun c member => ?_)
  exact unicode.toLower_ascii c (ascii c member)

/-- ASCII strings have the same upper case in all tables. -/
theorem Unicode.upper_of_ascii (unicode : Unicode) {s : String} (ascii : IsAscii s) :
    unicode.upper s = Unicode.asciiOnly.upper s := by
  simp only [Unicode.upper]
  refine congrArg String.ofList (List.map_congr_left fun c member => ?_)
  exact unicode.toUpper_ascii c (ascii c member)

/-- The strings of ASCII letters and digits. -/
def IsAlphanumeric (s : String) : Prop := ∀ c ∈ s.toList, c.isAlphanum = true

instance (s : String) : Decidable (IsAlphanumeric s) := List.decidableBAll _ _

theorem ascii_of_isAlphanum {c : Char} (alphanumeric : c.isAlphanum = true) : c.toNat < 128 := by
  have bounded : ∀ last : UInt32, last.toNat < 128 → c.val ≤ last → c.toNat < 128 :=
    fun last small below => Nat.lt_of_le_of_lt (UInt32.le_iff_toNat_le.mp below) small
  rcases (Bool.or_eq_true _ _).mp alphanumeric with letter | digit
  · rcases (Bool.or_eq_true _ _).mp letter with upper | lower
    · exact bounded 'Z'.val (by decide) (of_decide_eq_true upper).2
    · exact bounded 'z'.val (by decide)
        (of_decide_eq_true ((Bool.and_eq_true _ _).mp lower).2)
  · exact bounded '9'.val (by decide) (of_decide_eq_true ((Bool.and_eq_true _ _).mp digit).2)

/-- Strings of ASCII letters and digits have the same lower case in all tables. -/
theorem Unicode.lower_of_alphanumeric (unicode : Unicode) {s : String}
    (alphanumeric : IsAlphanumeric s) : unicode.lower s = Unicode.asciiOnly.lower s :=
  unicode.lower_of_ascii fun c member => ascii_of_isAlphanum (alphanumeric c member)

theorem exists_ofNat_of_ascii {c : Char} (ascii : c.toNat < 128) :
    ∃ n : Fin 128, c = Char.ofNat n :=
  ⟨⟨c.toNat, ascii⟩, (Char.ofNat_toNat c).symm⟩

/-- Two ASCII strings that differ only in letter case. -/
structure Respelled (first second : String) : Prop where
  firstAscii : IsAscii first
  secondAscii : IsAscii second
  lower : Unicode.asciiOnly.lower first = Unicode.asciiOnly.lower second

theorem Respelled.symm {first second : String} (respelled : Respelled first second) :
    Respelled second first :=
  ⟨respelled.secondAscii, respelled.firstAscii, respelled.lower.symm⟩

/-- The empty string is spelled in one way. -/
theorem Respelled.eq_empty_iff {first second : String} (respelled : Respelled first second) :
    first = "" ↔ second = "" := by
  have letters := congrArg String.toList respelled.lower
  simp only [Unicode.lower, String.toList_ofList] at letters
  rw [← String.toList_eq_nil_iff, ← String.toList_eq_nil_iff, ← List.map_eq_nil_iff, letters,
    List.map_eq_nil_iff]

/-- The upper case of an ASCII string can be read off its lower case. -/
theorem upper_lower_of_ascii {s : String} (ascii : IsAscii s) :
    Unicode.asciiOnly.upper (Unicode.asciiOnly.lower s) = Unicode.asciiOnly.upper s := by
  have all : ∀ n : Fin 128, (Char.ofNat n).toLower.toUpper = (Char.ofNat n).toUpper := by decide
  simp only [Unicode.upper, Unicode.lower, String.toList_ofList, List.map_map]
  refine congrArg String.ofList (List.map_congr_left fun c member => ?_)
  obtain ⟨n, rfl⟩ := exists_ofNat_of_ascii (ascii c member)
  exact all n

/-- Respelling changes neither case of a string, in any tables. -/
theorem Respelled.mapped {first second : String} (respelled : Respelled first second)
    (unicode : Unicode) :
    unicode.lower first = unicode.lower second ∧ unicode.upper first = unicode.upper second := by
  obtain ⟨firstAscii, secondAscii, lower⟩ := respelled
  constructor
  · rw [unicode.lower_of_ascii firstAscii, lower, unicode.lower_of_ascii secondAscii]
  · rw [unicode.upper_of_ascii firstAscii, ← upper_lower_of_ascii firstAscii, lower,
      upper_lower_of_ascii secondAscii, unicode.upper_of_ascii secondAscii]

/-- The lower-case ASCII letters and the digits. -/
def IsLowerAlphanum (c : Char) : Prop := c.isLower = true ∨ c.isDigit = true

instance (c : Char) : Decidable (IsLowerAlphanum c) :=
  inferInstanceAs (Decidable (c.isLower = true ∨ c.isDigit = true))

theorem isLowerAlphanum_toLower {c : Char} (alphanumeric : c.isAlphanum = true) :
    IsLowerAlphanum c.toLower := by
  have all : ∀ n : Fin 128, (Char.ofNat n).isAlphanum = true →
      IsLowerAlphanum (Char.ofNat n).toLower := by decide
  obtain ⟨n, rfl⟩ := exists_ofNat_of_ascii (ascii_of_isAlphanum alphanumeric)
  exact all n alphanumeric

/-- A lower-case letter or digit is the only one of its case variants. -/
theorem eq_of_lowerAlphanum {c d : Char} (lowerC : IsLowerAlphanum c) (lowerD : IsLowerAlphanum d) :
    d = c.toLower ∨ d = c.toUpper ↔ d = c := by
  have ascii : c.toNat < 128 := ascii_of_isAlphanum (by
    refine (Bool.or_eq_true _ _).mpr (lowerC.imp_left fun lower => ?_)
    exact (Bool.or_eq_true _ _).mpr (.inr lower))
  have all : ∀ n : Fin 128, IsLowerAlphanum (Char.ofNat n) →
      (Char.ofNat n).toLower = Char.ofNat n ∧
        (IsLowerAlphanum (Char.ofNat n).toUpper → (Char.ofNat n).toUpper = Char.ofNat n) := by
    decide
  obtain ⟨n, rfl⟩ := exists_ofNat_of_ascii ascii
  obtain ⟨same, sameUpper⟩ := all n lowerC
  rw [same]
  constructor
  · rintro (rfl | rfl)
    · rfl
    · exact sameUpper lowerD
  · exact .inl

/-- Lower case leaves only lower-case letters and digits of an alphanumeric string. -/
theorem isLowerAlphanum_of_mem_lower {s : String} (alphanumeric : IsAlphanumeric s) {c : Char}
    (member : c ∈ (Unicode.asciiOnly.lower s).toList) : IsLowerAlphanum c := by
  simp only [Unicode.lower, String.toList_ofList, List.mem_map] at member
  obtain ⟨original, inside, rfl⟩ := member
  exact isLowerAlphanum_toLower (alphanumeric original inside)

end DawnPatrol.Go
