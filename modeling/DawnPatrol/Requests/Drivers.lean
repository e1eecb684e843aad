import DawnPatrol.RailsDb.DataSourceNames
import DawnPatrol.Requests.Pools

/-!
# The driver of a data source name

`databaseURL` writes a data source name in the grammar of one driver, and
`databaseDriver` guesses the driver back from its first letters. For an
association these letters are its own, in lower case, so the guess fails exactly
for the associations that start with `postgres` (`driver_fits_iff`): a copy of
one of these hands a name in the grammar of MySQL to the Postgres driver. A copy
request makes no connection but through these two (`copy_opens`).
-/

set_option autoImplicit false

namespace DawnPatrol.Requests

open Foundation Go Api Postgres Execution Db Rails RailsDb Http MySQL

/-! ## What is opened -/

/-- A connection is opened with a driver and a data source name. -/
def OpensWith (driver url : String) : Call → Prop
  | .openConn givenDriver givenURL => givenDriver = driver ∧ givenURL = url
  | _ => True

/-- Calls that leave the pools alone open nothing. -/
theorem opensWith_of_leaves {driver url : String} {call : Call} (leaves : LeavesPools call) :
    OpensWith driver url call := by
  cases call with
  | openConn => exact absurd leaves id
  | _ => exact trivial

section Openings

variable {env : Environment}

/-- A connection is opened with the driver that is guessed. -/
theorem for_opens (association : String) :
    (Databases.for env association).Only
      (OpensWith (databaseDriver (databaseURL env association)) (databaseURL env association)) :=
  for_only ⟨rfl, rfl⟩

theorem copyFrom_opens (db : Conn) (acronym : String) :
    (RacingAssociationService.copyFrom env eventService associationService db acronym).Only
      (OpensWith (databaseDriver (databaseURL env acronym)) (databaseURL env acronym)) := by
  obtain ⟨rest, reads, onFound, onError⟩ :=
    @copyFrom_reads_then_finds env eventService db acronym
  have finds : (RacingAssociationService.find env acronym).Only
      (OpensWith (databaseDriver (databaseURL env acronym)) (databaseURL env acronym)) :=
    find_only ⟨rfl, rfl⟩ fun _ => trivial
  rw [reads]
  refine ⟨trivial, fun read => finds.bind fun found => ?_⟩
  rcases found with ⟨racing, _ | err⟩
  · rw [onFound]
    exact (writeCopy_leaves acronym read.1 racing).mono fun _ leaves => opensWith_of_leaves leaves
  · rw [onError]
    exact trivial

/-- **A copy request opens** nothing but the data source name of its association,
with the driver that is guessed from it, whatever its calls answer. -/
theorem copy_opens (newRelicApp : Bool) (r : Request) :
    let url := databaseURL env (r.postFormValue "association")
    (newInstrumentedHandler newRelicApp (Copy.mk (racingAssociationService env)).serveHTTP r).Only
      (OpensWith (databaseDriver url) url) := by
  intro url
  rw [newInstrumentedHandler_eq]
  refine Program.Only.recovering (fun panic => ?_) ?_
  · cases panic.isError with
    | true => exact ⟨trivial, fun _ => ⟨trivial, fun _ => trivial⟩⟩
    | false => exact trivial
  · simp only [Copy.serveHTTP]
    split
    · exact ⟨trivial, fun _ => trivial⟩
    · have copies : (RacingAssociationService.copy env eventService associationService
          (r.postFormValue "association")).Only (OpensWith (databaseDriver url) url) :=
        (for_opens _).bind fun db =>
          Program.Only.deferring ⟨trivial, fun _ => trivial⟩ (copyFrom_opens db _)
      refine copies.bind fun ended => ?_
      cases ended with
      | none => exact trivial
      | some err => exact trivial

end Openings

/-! ## The driver that is guessed -/

/-- The variable that holds the data source name of an association. -/
def urlVariable (env : Environment) (association : String) : String :=
  if association = "" then "DATABASE_URL"
  else env.unicode.upper association ++ "_DATABASE_URL"

/-- The driver whose grammar `databaseURL` follows when no variable is set. -/
def writtenFor (association : String) : String :=
  if association = "" then "postgres" else "mysql"

/-- The letters by which a data source name is taken for one of Postgres. -/
def StartsWithPostgres (name : String) : Prop := "postgres".toList <+: name.toList

instance (name : String) : Decidable (StartsWithPostgres name) :=
  inferInstanceAs (Decidable (_ <+: _))

/-- The driver of a data source name is the one it is written for, and a connection
to the database of the association hands it over to that driver, also when the
association was posted. -/
structure DriverFits (env : Environment) (association : String) : Prop where
  picked : databaseDriver (databaseURL env association) = writtenFor association
  opened : (Databases.for env association).Only
    (OpensWith (writtenFor association) (databaseURL env association))
  posted : ∀ (newRelicApp : Bool) (r : Request), r.postFormValue "association" = association →
    (newInstrumentedHandler newRelicApp
      (Copy.mk (racingAssociationService env)).serveHTTP r).Only
        (OpensWith (writtenFor association) (databaseURL env association))

section Guesses

variable {env : Environment} {association : String}

theorem databaseDriver_eq_mysql_iff {url : String} :
    databaseDriver url = "mysql" ↔ ¬ StartsWithPostgres url := by
  rw [databaseDriver, StartsWithPostgres, ← List.isPrefixOf_iff_prefix]
  split
  · rename_i starts
    exact iff_of_false (by decide) (not_not_intro starts)
  · rename_i differs
    exact iff_of_true rfl differs

/-- The first letters of a name that is built are those of the association. -/
theorem startsWithPostgres_databaseURL (named : association ≠ "")
    (unset : env.getenv (env.unicode.upper association ++ "_DATABASE_URL") = "") :
    StartsWithPostgres (databaseURL env association) ↔
      StartsWithPostgres (env.unicode.lower association) := by
  have text : (databaseURL env association).toList =
      (env.unicode.lower association).toList ++ ':' ::
        ("rails@tcp(rails-db:3306)/".toList ++ (env.unicode.lower association).toList ++
          "?parseTime=True".toList) := by
    rw [toList_databaseURL named unset]
    simp
  rw [StartsWithPostgres, text]
  exact starts_append_cons_iff (by decide)

/-- The driver fits as soon as it is guessed right. -/
theorem DriverFits.of_picked
    (picked : databaseDriver (databaseURL env association) = writtenFor association) :
    DriverFits env association where
  picked := picked
  opened := picked ▸ for_opens association
  posted newRelicApp r posted := by
    have opens := @copy_opens env newRelicApp r
    rw [posted] at opens
    exact picked ▸ opens

/-- **The driver fits the data source name** exactly when this is that of the Dawn
Patrol database or the lower case of the association does not start with `postgres`. -/
theorem driver_fits_iff (env : Environment) {association : String}
    (unset : env.getenv (urlVariable env association) = "") :
    DriverFits env association ↔
      association = "" ∨ ¬ StartsWithPostgres (env.unicode.lower association) := by
  by_cases named : association = ""
  · subst named
    refine iff_of_true (.of_picked ?_) (.inl rfl)
    have builds : databaseURL env "" =
        "postgres://dawnpatrol@db/dawnpatrol_development?sslmode=disable" := if_pos unset
    rw [builds]
    rfl
  · rw [urlVariable, if_neg named] at unset
    have starts := startsWithPostgres_databaseURL named unset
    have written : writtenFor association = "mysql" := if_neg named
    constructor
    · intro fits
      have picked := fits.picked
      rw [written, databaseDriver_eq_mysql_iff, starts] at picked
      exact .inr picked
    · rintro (blank | differs)
      · exact absurd blank named
      · refine .of_picked ?_
        rw [written, databaseDriver_eq_mysql_iff, starts]
        exact differs

/-- The name of CBRA is handed to the MySQL driver. -/
theorem driver_fits_cbra : DriverFits .plain "CBRA" :=
  (driver_fits_iff .plain rfl).mpr (.inr (by decide))

/-- **An association that starts with `postgres`** is taken to the other driver. -/
theorem postgres_misses_driver :
    ¬ ∀ (env : Environment) (association : String),
      env.getenv (urlVariable env association) = "" → DriverFits env association := by
  intro fits
  have picked := (fits .plain "Postgres" rfl).picked
  exact absurd picked (by decide)

end Guesses

end DawnPatrol.Requests
