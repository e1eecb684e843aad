import DawnPatrol.Execution.Calls

/-!
# Connections

The factory of connections of package `db`. The data source name of an
association comes from the environment, or is built from the lower-cased name.
Opening it is tried ten times before the program panics.

How an attempt loop ends is a function of the faults it meets
(`openOutcome`, `run_attemptToOpen`): it changes nothing but the list of open
connections, and it uses up the faults of its attempts. All of them are made
under one data source name (`for_only`).
-/

set_option autoImplicit false

namespace DawnPatrol.Db

open Foundation Go Execution

/-- The data source name of an association, and of the Dawn Patrol database
for the empty string. -/
def databaseURL (env : Environment) (association : String) : String :=
  if association = "" then
    let databaseURL := env.getenv "DATABASE_URL"
    if databaseURL = "" then "postgres://dawnpatrol@db/dawnpatrol_development?sslmode=disable"
    else databaseURL
  else
    let key := env.unicode.upper association ++ "_DATABASE_URL"
    let databaseURL := env.getenv key
    if databaseURL = "" then
      let a := env.unicode.lower association
      a ++ ":rails@tcp(rails-db:3306)/" ++ a ++ "?parseTime=True"
    else databaseURL

/-- The driver for a data source name. -/
def databaseDriver (url : String) : String :=
  if "postgres".toList.isPrefixOf url.toList then "postgres" else "mysql"

/-- The panic after the last attempt. Without attempts there is no error whose
text could be asked for. -/
def couldNotConnect (driver url : String) : Option GoError → PanicValue
  | none => .nilDereference
  | some err =>
      .string ("Could not connect to " ++ driver ++ ", " ++ url ++ ". " ++ err.error)

/-- The attempts that are left, after the error of the last one. -/
def attemptToOpen (driver url : String) (err : Option GoError) : ℕ → GoM Conn
  | 0 => raise (couldNotConnect driver url err)
  | attempts + 1 => do
      match ← perform (.openConn driver url) with
      | .ok db => return db
      | .error err => attemptToOpen driver url (some err) attempts

/-- Open a data source name, with a number of attempts. -/
def openURLWithAttempts (url : String) (attempts : ℕ) : GoM Conn :=
  attemptToOpen (databaseDriver url) url none attempts

/-- Open a data source name. -/
def openURL (url : String) : GoM Conn := openURLWithAttempts url 10

namespace Databases

/-- A connection to the database of an association. -/
def «for» (env : Environment) (association : String) : GoM Conn :=
  openURL (databaseURL env association)

/-- A connection to the Dawn Patrol database. -/
def default (env : Environment) : GoM Conn := Databases.for env ""

end Databases

/-! ## How opening ends -/

/-- The number of failed attempts before the one that succeeds, or the panic. -/
def openOutcome (driver url : String) :
    (ℕ → Fault) → Option GoError → ℕ → Except PanicValue ℕ
  | _, err, 0 => .error (couldNotConnect driver url err)
  | faults, _, attempts + 1 =>
      match faults 0 with
      | .none => .ok 0
      | .fail failed _ =>
          (openOutcome driver url (fun n => faults (n + 1)) (some failed) attempts).map (· + 1)

/-- Opening succeeds after some failures exactly when that is the first attempt
that meets no fault. -/
theorem openOutcome_eq_ok {driver url : String} {faults : ℕ → Fault} {err : Option GoError}
    {attempts failures : ℕ} :
    openOutcome driver url faults err attempts = .ok failures ↔
      failures < attempts ∧ faults failures = .none ∧ ∀ n < failures, faults n ≠ .none := by
  induction attempts generalizing faults err failures with
  | zero => simp [openOutcome]
  | succ attempts ih =>
      simp only [openOutcome]
      cases first : faults 0 with
      | none =>
          constructor
          · intro opened
            cases opened
            exact ⟨Nat.succ_pos _, first, fun n below => absurd below (Nat.not_lt_zero n)⟩
          · rintro ⟨-, -, fails⟩
            rcases Nat.eq_zero_or_pos failures with rfl | later
            · rfl
            · exact absurd first (fails 0 later)
      | fail failed progress =>
          have mapped : ∀ outcome : Except PanicValue ℕ, outcome.map (· + 1) = .ok failures ↔
              ∃ count, outcome = .ok count ∧ count + 1 = failures := by
            intro outcome
            cases outcome <;> simp [Except.map]
          refine (mapped _).trans ?_
          simp only [ih]
          constructor
          · rintro ⟨count, ⟨below, succeeds, fails⟩, rfl⟩
            refine ⟨Nat.succ_lt_succ below, succeeds, fun n earlier => ?_⟩
            cases n with
            | zero => simp [first]
            | succ n => exact fails n (Nat.lt_of_succ_lt_succ earlier)
          · rintro ⟨below, succeeds, fails⟩
            cases failures with
            | zero => simp [first] at succeeds
            | succ count =>
                exact ⟨count, ⟨Nat.lt_of_succ_lt_succ below, succeeds,
                  fun n earlier => fails (n + 1) (Nat.succ_lt_succ earlier)⟩, rfl⟩

/-- A panic after at least one attempt is a string. -/
theorem openOutcome_panic {driver url : String} {faults : ℕ → Fault} {err : Option GoError}
    {attempts : ℕ} {panic : PanicValue} (attempted : 0 < attempts ∨ err.isSome = true)
    (failed : openOutcome driver url faults err attempts = .error panic) :
    panic.isError = false := by
  induction attempts generalizing faults err with
  | zero =>
      cases err with
      | none => simp at attempted
      | some err =>
          cases failed
          rfl
  | succ attempts ih =>
      simp only [openOutcome] at failed
      split at failed
      · cases failed
      · rename_i failure progress first
        cases rest : openOutcome driver url (fun n => faults (n + 1)) (some failure) attempts with
        | error inner =>
            rw [rest] at failed
            cases failed
            exact ih (.inr rfl) rest
        | ok count =>
            rw [rest] at failed
            cases failed

/-- Running the attempts that are left. -/
theorem run_attemptToOpen (env : Environment) (driver url : String) (err : Option GoError)
    (attempts : ℕ) (m : Machine) :
    run env (attemptToOpen driver url err attempts) m =
      match openOutcome driver url (m.script .openConn) err attempts with
      | .ok failures =>
          (.ok ⟨m.world.nextConn, url⟩,
            ⟨m.world.opened url, m.script.skip .openConn (failures + 1)⟩)
      | .error panic => (.error panic, ⟨m.world, m.script.skip .openConn attempts⟩) := by
  induction attempts generalizing err m with
  | zero => simp [attemptToOpen, openOutcome]
  | succ attempts ih =>
      simp only [attemptToOpen, openOutcome, Program.bind_eq, Program.perform_bind, run_call,
        handle, Call.kind]
      cases first : m.script .openConn 0 with
      | none => simp [answer, Script.skip, Script.next]
      | fail failed progress =>
          simp only [answer]
          rw [ih]
          simp only [Script.next_kind, Script.skip_next]
          cases openOutcome driver url (fun n => m.script .openConn (n + 1)) (some failed) attempts
            <;> rfl

/-- **Opening** the data source name of an association ends as its ten attempts
do, with one open pool more or with a panic. -/
theorem run_for (env : Environment) (association : String) (m : Machine) :
    run env (Databases.for env association) m =
      let url := databaseURL env association
      match openOutcome (databaseDriver url) url (m.script .openConn) none 10 with
      | .ok failures =>
          (.ok ⟨m.world.nextConn, url⟩,
            ⟨m.world.opened url, m.script.skip .openConn (failures + 1)⟩)
      | .error panic => (.error panic, ⟨m.world, m.script.skip .openConn 10⟩) :=
  run_attemptToOpen env _ _ none 10 m

/-! ## The calls of opening -/

section Only

variable {allowed : Call → Prop}

theorem attemptToOpen_only {driver url : String} (opens : allowed (.openConn driver url))
    (err : Option GoError) (attempts : ℕ) :
    (attemptToOpen driver url err attempts).Only allowed := by
  induction attempts generalizing err with
  | zero => exact trivial
  | succ attempts ih =>
      refine ⟨opens, fun opened => ?_⟩
      cases opened with
      | ok db => exact trivial
      | error failed => exact ih (some failed)

/-- A connection is opened under one data source name, with the driver for it. -/
theorem for_only {env : Environment} {association : String}
    (opens : allowed (.openConn (databaseDriver (databaseURL env association))
      (databaseURL env association))) : (Databases.for env association).Only allowed :=
  attemptToOpen_only opens none 10

end Only

end DawnPatrol.Db
