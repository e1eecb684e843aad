import DawnPatrol.Db.Databases
import DawnPatrol.MySQL.Dsn

/-!
# The data source name of an association

`databaseURL` writes the lower-cased name of an association twice into a data
source name. The driver reads the two back as the user and the database exactly
when the name has no slash, colon or question mark
(`parseDSN_databaseURL_iff`): a slash moves the place at which the name is cut,
a colon ends the user, and a question mark ends the database.
-/

set_option autoImplicit false

namespace DawnPatrol.RailsDb

open Foundation Go Execution Db MySQL

/-- The configuration that leads to the Rails database of a name. -/
def railsConfig (name : String) : Config where
  user := name
  passwd := "rails"
  net := "tcp"
  addr := "rails-db:3306"
  dbName := name
  parseTime := true

/-- The delimiters that a name is misread at. -/
def IsDelimiter (c : Char) : Prop := c = '/' ∨ c = ':' ∨ c = '?'

instance (c : Char) : Decidable (IsDelimiter c) :=
  inferInstanceAs (Decidable (c = '/' ∨ c = ':' ∨ c = '?'))

/-- The names without delimiters. -/
def IsPlain (name : String) : Prop := ∀ c ∈ name.toList, ¬ IsDelimiter c

instance (name : String) : Decidable (IsPlain name) := List.decidableBAll _ _

variable {env : Environment} {readers : ValueReaders} {association : String}

/-- The name that is built when no variable is set. -/
theorem toList_databaseURL (named : association ≠ "")
    (unset : env.getenv (env.unicode.upper association ++ "_DATABASE_URL") = "") :
    (databaseURL env association).toList =
      (env.unicode.lower association).toList ++ ":rails@tcp(rails-db:3306)".toList ++
        '/' :: ((env.unicode.lower association).toList ++ "?parseTime=True".toList) := by
  simp only [databaseURL, if_neg named, unset, ↓reduceIte, String.toList_append]
  simp

section Cuts

variable {name : List Char}

/-- The cut of a name at its last slash, when the association has none. -/
theorem cutLast_slash (clear : '/' ∉ name) :
    cutLast '/' (name ++ ":rails@tcp(rails-db:3306)".toList ++
        '/' :: (name ++ "?parseTime=True".toList)) =
      some (name ++ ":rails@tcp(rails-db:3306)".toList, name ++ "?parseTime=True".toList) := by
  refine cutLast_eq_some.mpr ⟨rfl, fun member => ?_⟩
  rcases List.mem_append.mp member with inName | inParams
  · exact clear inName
  · exact absurd inParams (by decide)

/-- The cut of a name at its last at sign. -/
theorem cutLast_at :
    cutLast '@' (name ++ ":rails@tcp(rails-db:3306)".toList) =
      some (name ++ ":rails".toList, "tcp(rails-db:3306)".toList) :=
  cutLast_eq_some.mpr ⟨by simp, by decide⟩

end Cuts

/-- The network of a name that is built. -/
theorem parseNetwork_rails (cfg : Config) :
    parseNetwork cfg "tcp(rails-db:3306)".toList =
      .ok { cfg with addr := "rails-db:3306", net := "tcp" } := by
  have cut : cutFirst '(' "tcp(rails-db:3306)".toList =
      some ("tcp".toList, "rails-db:3306)".toList) := by decide
  have closed : "tcp(rails-db:3306)".toList.getLast? = some ')' := by decide
  simp only [parseNetwork, cut, if_pos closed]
  rfl

/-- The parameter of a name that is built. -/
theorem parseDSNParams_rails (cfg : Config) :
    parseDSNParams readers cfg "parseTime=True".toList = .ok { cfg with parseTime := true } := by
  have single : "parseTime=True".toList.splitOn '&' = ["parseTime=True".toList] := by decide
  have cut : cutFirst '=' "parseTime=True".toList = some ("parseTime".toList, "True".toList) := by
    decide
  simp only [parseDSNParams, single, setParams, cut, String.ofList_toList]
  rfl

/-- **A name without delimiters** is parsed to the configuration it was built for. -/
theorem parseDSN_databaseURL (named : association ≠ "")
    (unset : env.getenv (env.unicode.upper association ++ "_DATABASE_URL") = "")
    (plain : IsPlain (env.unicode.lower association)) :
    parseDSN readers (databaseURL env association) =
      .ok (railsConfig (env.unicode.lower association)) := by
  set name := env.unicode.lower association with nameIs
  have noSlash : '/' ∉ name.toList := fun member => plain _ member (.inl rfl)
  have noColon : ':' ∉ name.toList := fun member => plain _ member (.inr (.inl rfl))
  have noMark : '?' ∉ name.toList := fun member => plain _ member (.inr (.inr rfl))
  have colon : cutFirst ':' (name.toList ++ ":rails".toList) = some (name.toList, "rails".toList) :=
    cutFirst_eq_some.mpr ⟨rfl, noColon⟩
  have mark : cutFirst '?' (name.toList ++ "?parseTime=True".toList) =
      some (name.toList, "parseTime=True".toList) := cutFirst_eq_some.mpr ⟨rfl, noMark⟩
  simp only [parseDSN, toList_databaseURL named unset, ← nameIs, cutLast_slash noSlash,
    parseCredentials, cutLast_at, colon, parseNetwork_rails, parseDatabase, mark, bind,
    Except.bind, parseDSNParams_rails, pure, Except.pure, String.ofList_toList]
  rfl

/-- **Parsing the data source name undoes building it** exactly when the
lower-cased association has no delimiter. -/
theorem parseDSN_databaseURL_iff (env : Environment) (readers : ValueReaders)
    {association : String} {cfg : Config} (named : association ≠ "")
    (unset : env.getenv (env.unicode.upper association ++ "_DATABASE_URL") = "")
    (accepted : parseDSN readers (databaseURL env association) = .ok cfg) :
    cfg = railsConfig (env.unicode.lower association) ↔
      IsPlain (env.unicode.lower association) := by
  set name := env.unicode.lower association with nameIs
  have text := toList_databaseURL named unset
  constructor
  · rintro rfl
    have noSlash : '/' ∉ name.toList := by
      intro member
      -- the database would be shorter than the name
      cases cut : cutLast '/' name.toList with
      | none => exact cutLast_eq_none.mp cut member
      | some parts =>
          obtain ⟨front, rest⟩ := parts
          obtain ⟨parts, clear⟩ := cutLast_eq_some.mp cut
          have slash : cutLast '/' (databaseURL env association).toList =
              some (name.toList ++ ":rails@tcp(rails-db:3306)".toList ++ '/' :: front,
                rest ++ "?parseTime=True".toList) := by
            refine cutLast_eq_some.mpr ⟨?_, fun inRest => ?_⟩
            · rw [text, ← nameIs]
              conv_lhs => rw [parts]
              simp [parts]
            · rcases List.mem_append.mp inRest with inName | inParams
              · exact clear inName
              · exact absurd inParams (by decide)
          have database := congrArg String.toList (parseDSN_fields accepted slash).1
          have shorter : (upTo '?' (rest ++ "?parseTime=True".toList)).length ≤ rest.length := by
            rw [show "?parseTime=True".toList = '?' :: "parseTime=True".toList from rfl,
              upTo_append_cons]
            exact length_upTo_le
          rw [String.toList_ofList] at database
          have lengths := congrArg List.length database
          have longer := congrArg List.length parts
          simp only [railsConfig, List.length_append, List.length_cons] at lengths longer
          omega
    obtain ⟨dbName, user⟩ :=
      parseDSN_fields accepted ((congrArg _ text).trans (cutLast_slash noSlash))
    have userIs := congrArg String.toList (user _ _ cutLast_at)
    have nameAgain := congrArg String.toList dbName
    rw [String.toList_ofList, show ":rails".toList = ':' :: "rails".toList from rfl,
      upTo_append_cons] at userIs
    rw [String.toList_ofList,
      show "?parseTime=True".toList = '?' :: "parseTime=True".toList from rfl,
      upTo_append_cons] at nameAgain
    rintro c member (rfl | rfl | rfl)
    · exact noSlash member
    · exact upTo_eq_self_iff.mp userIs.symm member
    · exact upTo_eq_self_iff.mp nameAgain.symm member
  · intro plain
    rw [parseDSN_databaseURL named unset plain] at accepted
    exact (Except.ok.inj accepted).symm

/-- Readers that know texts without escapes. -/
def plainReaders : ValueReaders where
  queryUnescape text :=
    if '%' ∈ text.toList ∨ '+' ∈ text.toList then .error (.other "invalid URL escape")
    else .ok text
  atoi text := (text.toInt?.map Except.ok).getD (.error (.other "invalid syntax"))
  parseDuration _ := .error (.other "time: invalid duration")
  loadLocation _ := .error (.other "unknown time zone")
  unicode := .asciiOnly

/-- An acronym is parsed to the configuration it was built for. -/
theorem parseDSN_of_acronym :
    ∃ cfg, parseDSN plainReaders (databaseURL .plain "CBRA") = .ok cfg ∧
      cfg = railsConfig "cbra" := by
  have accepted : parseDSN plainReaders (databaseURL .plain "CBRA") =
      .ok (railsConfig (Environment.plain.unicode.lower "CBRA")) :=
    parseDSN_databaseURL (by decide) rfl (by decide)
  exact ⟨_, accepted, (parseDSN_databaseURL_iff .plain plainReaders (by decide) rfl accepted).mpr
    (by decide)⟩

/-- **An association with delimiters** leads the connection to another server. -/
theorem association_redirects_connection :
    ¬ ∀ (env : Environment) (readers : ValueReaders) (association : String) (cfg : Config),
      association ≠ "" → env.getenv (env.unicode.upper association ++ "_DATABASE_URL") = "" →
      parseDSN readers (databaseURL env association) = .ok cfg →
        cfg = railsConfig (env.unicode.lower association) := by
  intro undoes
  have accepted : ∃ cfg, parseDSN plainReaders
      (databaseURL .plain "x:y@tcp(evil:3306)/db?x=") = .ok cfg ∧ cfg.addr = "evil:3306" :=
    ⟨_, rfl, rfl⟩
  obtain ⟨cfg, accepted, addr⟩ := accepted
  have same := undoes .plain plainReaders "x:y@tcp(evil:3306)/db?x=" cfg (by decide) rfl accepted
  rw [same] at addr
  exact absurd addr (by decide)

end DawnPatrol.RailsDb
