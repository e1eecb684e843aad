import DawnPatrol.Foundation.Interleaving
import DawnPatrol.Gorm.Statements
import DawnPatrol.Rails.Records

/-!
# The calls the program makes, and the world that answers them

The program is written as computations that call the two databases, the time
zone files and the response writer. The world holds what those calls read and
change: the Dawn Patrol store, the Rails databases by data source name, the
open connection pools, and the response being written.

A call may fail. A fault says with which error, and how far the call had come:
how many rows were scanned, or which ids were drawn. A script lists the faults
of the calls of each kind in the order in which they are made, so a
computation runs under every pattern of its statements succeeding and failing
(`run`). When several computations take turns, each call may meet any fault
(`Answers`).
-/

set_option autoImplicit false

namespace DawnPatrol.Execution

open Foundation Go Api Postgres

/-- A connection pool that gorm opened. -/
structure Conn where
  id : ℕ
  url : String
  deriving DecidableEq

/-- The calls out of the program. -/
inductive Call where
  | openConn (driver url : String)
  | closeConn (conn : Conn)
  | findRailsEvents (conn : Conn)
  | firstRacingAssociation (conn : Conn) (shortName : String)
  | loadLocation (name : String)
  | firstAssociation (condition : Gorm.Condition) (dest : Association)
  | createAssociation (a : Association)
  | findEvents (associationID : ℤ)
  | createEvent (e : Event)
  | setHeader (name value : String)
  | writeHeader (code : ℕ)
  | write (text : String)
  | capture (message : String)

/-- What a call answers. A query of gorm answers its destination and error. -/
@[reducible] def Call.Answer : Call → Type
  | openConn .. => Except GoError Conn
  | findRailsEvents .. => List Rails.Event × Option GoError
  | firstRacingAssociation .. => Rails.RacingAssociation × Option GoError
  | loadLocation .. => Except GoError Location
  | firstAssociation .. | createAssociation .. => Association × Option GoError
  | findEvents .. => List Event × Option GoError
  | createEvent .. => Event × Option GoError
  | _ => Unit

/-- A computation of the program. -/
abbrev GoM := Program Call Call.Answer PanicValue

/-- Make a call. -/
abbrev perform (call : Call) : GoM call.Answer := Program.perform call

/-- A panic. -/
abbrev raise {α : Type} (value : PanicValue) : GoM α := Program.raise value

/-! ## The world -/

/-- The response of a request so far. The status is open until the first write. -/
structure Response where
  status : Option ℕ := none
  headers : List (String × String) := []
  body : String := ""
  deriving DecidableEq

/-- The status of a response when its handler has returned. -/
def Response.finalStatus (response : Response) : ℕ := response.status.getD 200

/-- What the calls read and change. -/
structure World where
  store : Store
  rails : String → Rails.RailsDatabase
  conns : List Conn := []
  nextConn : ℕ := 0
  response : Response := {}
  captured : List String := []

/-- What does not change while the program runs: the environment variables, the
case tables, the equality of the collation `utf8_unicode_ci`, the operator `~*` of
Postgres, the offset of the time zone of its session, and the time zone files. -/
structure Environment where
  getenv : String → String
  unicode : Unicode
  collatesTo : String → String → Bool
  operator : HostOperator
  sessionOffset : Timestamptz → ℤ
  zone : String → Location

/-- An environment in which no variable is set, only ASCII has case, short names
are equal ignoring case, every pattern is plain, and every clock shows UTC. -/
def Environment.plain : Environment where
  getenv _ := ""
  unicode := .asciiOnly
  collatesTo stored asked := Unicode.asciiOnly.lower stored == Unicode.asciiOnly.lower asked
  operator := .ofPlain
  sessionOffset _ := 0
  zone _ := .utc

/-- A world in which every Rails database holds the same rows. -/
def World.start (store : Store) (rails : Rails.RailsDatabase) : World where
  store := store
  rails _ := rails

/-- A world in which every Rails database holds one association with one event. -/
def World.withEvent (store : Store) (shortName : String) : World :=
  .start store (.ofAssociation shortName [{ id := 1 }] (by simp))

/-- A world in which one data source name leads to the Rails database of one
association, and all others lead to that of another. -/
def World.withTwo (store : Store) (url shortName other : String) : World where
  store := store
  rails asked := if asked = url then .ofAssociation shortName [{ id := 1 }] (by simp)
    else .ofAssociation other [{ id := 1 }, { id := 2 }] (by simp)

/-- How a call goes: it succeeds, or fails having come some way. -/
inductive Fault where
  | none
  | fail (err : GoError) (progress : ℕ)
  deriving DecidableEq

/-- The rows a query hands over, and its error. -/
def Fault.scanned {α : Type} : Fault → List α → List α × Option GoError
  | none, rows => (rows, Option.none)
  | fail err progress, rows => (rows.take progress, some err)

/-- A query for one row, into a destination. -/
def Fault.scannedOne {α β : Type} (scan : β → α → β) (dest : β) :
    Fault → Option α → β × Option GoError
  | none, some row => (scan dest row, Option.none)
  | none, Option.none => (dest, some .recordNotFound)
  | fail err 0, _ => (dest, some err)
  | fail err (_ + 1), row => (row.elim dest (scan dest), some err)

/-- Whether a query for one row reaches the row before it fails. -/
def Fault.handsOver : Fault → Bool
  | none | fail _ (_ + 1) => true
  | fail _ 0 => false

/-- The first racing association whose short name the collation equates. -/
def firstRacingAssociation (env : Environment) (shortName : String)
    (rails : Rails.RailsDatabase) : Option Rails.RacingAssociation :=
  firstBy Rails.RacingAssociation.id (fun row => env.collatesTo row.shortName shortName)
    rails.racingAssociations

/-- `Create` of an association under a fault. A statement that fails leaves the
record alone, and may have drawn the id. -/
def createAssociation (fault : Fault) (a : Association) (st : Store) :
    (Association × Option GoError) × Store :=
  match fault with
  | .none => Gorm.createAssociation st a
  | .fail err 0 => ((a, some err), st)
  | .fail err (_ + 1) => ((a, some err), if a.id = 0 then st.drawAssociationID else st)

/-- `Create` of an event under a fault. A transaction that fails may have drawn
the id of the nested association, and that of the event. -/
def createEvent (fault : Fault) (e : Event) (st : Store) : (Event × Option GoError) × Store :=
  match fault with
  | .none => Gorm.createEvent st e
  | .fail err 0 => ((e, some err), st)
  | .fail err 1 => ((e, some err), st.rolledBack (Gorm.saveBeforeAssociations st e).2)
  | .fail err (_ + 2) =>
      let saved := (Gorm.saveBeforeAssociations st e).2
      ((e, some err), st.rolledBack (if e.id = 0 then saved.drawEventID else saved))

/-- The world after a pool has been opened. -/
def World.opened (w : World) (url : String) : World :=
  { w with conns := ⟨w.nextConn, url⟩ :: w.conns, nextConn := w.nextConn + 1 }

/-- How the world answers a call. -/
def answer (env : Environment) (fault : Fault) : (call : Call) → World → call.Answer × World
  | .openConn _ url, w =>
      match fault with
      | .none => (.ok ⟨w.nextConn, url⟩, w.opened url)
      | .fail err _ => (.error err, w)
  | .closeConn conn, w => ((), { w with conns := w.conns.erase conn })
  | .findRailsEvents conn, w => (fault.scanned (w.rails conn.url).events, w)
  | .firstRacingAssociation conn shortName, w =>
      (fault.scannedOne (fun _ row => row) {}
        (firstRacingAssociation env shortName (w.rails conn.url)), w)
  | .loadLocation name, w =>
      match fault with
      | .none => (.ok (env.zone name), w)
      | .fail err _ => (.error err, w)
  | .firstAssociation condition dest, w =>
      (fault.scannedOne (Gorm.scanAssociation env.sessionOffset) dest
        (Gorm.firstAssociation env.operator condition dest w.store), w)
  | .createAssociation a, w =>
      let created := createAssociation fault a w.store
      (created.1, { w with store := created.2 })
  | .findEvents associationID, w =>
      let rows := (Gorm.findEvents associationID w.store).map (Gorm.scanEvent env.sessionOffset)
      (fault.scanned rows, w)
  | .createEvent e, w =>
      let created := createEvent fault e w.store
      (created.1, { w with store := created.2 })
  | .setHeader name value, w =>
      ((), { w with response :=
        { w.response with headers := w.response.headers ++ [(name, value)] } })
  | .writeHeader code, w =>
      -- a status that has been written stays
      ((), { w with response := { w.response with status := some (w.response.status.getD code) } })
  | .write text, w =>
      ((), { w with response :=
        { w.response with
          status := some w.response.finalStatus
          body := w.response.body ++ text } })
  | .capture message, w => ((), { w with captured := w.captured ++ [message] })

/-! ## Running one computation -/

/-- The kinds of calls that can fail. -/
inductive CallKind where
  | openConn
  | findRailsEvents
  | firstRacingAssociation
  | loadLocation
  | firstAssociation
  | createAssociation
  | findEvents
  | createEvent
  | other
  deriving DecidableEq

/-- The kind of a call. -/
def Call.kind : Call → CallKind
  | openConn .. => .openConn
  | findRailsEvents .. => .findRailsEvents
  | firstRacingAssociation .. => .firstRacingAssociation
  | loadLocation .. => .loadLocation
  | firstAssociation .. => .firstAssociation
  | createAssociation .. => .createAssociation
  | findEvents .. => .findEvents
  | createEvent .. => .createEvent
  | _ => .other

/-- The faults of the calls of each kind, in the order of the calls. -/
abbrev Script := CallKind → ℕ → Fault

namespace Script

/-- The script after a call of a kind. -/
def next (script : Script) (kind : CallKind) : Script :=
  Function.update script kind fun n => script kind (n + 1)

/-- The script after a number of calls of a kind. -/
def skip (script : Script) (kind : CallKind) (count : ℕ) : Script :=
  Function.update script kind fun n => script kind (n + count)

/-- The script without faults. -/
def clear : Script := fun _ _ => .none

/-- The script in which the first call of a kind fails. -/
def failing (kind : CallKind) : Script := fun called n =>
  if called = kind ∧ n = 0 then .fail (.other "connection lost") 0 else .none

@[simp] theorem next_self (script : Script) (kind : CallKind) (n : ℕ) :
    script.next kind kind n = script kind (n + 1) := by
  simp [next]

@[simp] theorem next_of_ne (script : Script) {kind queried : CallKind} (ne : queried ≠ kind) :
    script.next kind queried = script queried := by
  simp [next, ne]

@[simp] theorem skip_self (script : Script) (kind : CallKind) (count n : ℕ) :
    script.skip kind count kind n = script kind (n + count) := by
  simp [skip]

@[simp] theorem skip_of_ne (script : Script) {kind queried : CallKind} (count : ℕ)
    (ne : queried ≠ kind) : script.skip kind count queried = script queried := by
  simp [skip, ne]

/-- The faults of a kind after a call of it. -/
theorem next_kind (script : Script) (kind : CallKind) :
    script.next kind kind = fun n => script kind (n + 1) := by
  funext n
  exact next_self script kind n

/-- The faults of a kind after some calls of it. -/
theorem skip_kind (script : Script) (kind : CallKind) (count : ℕ) :
    script.skip kind count kind = fun n => script kind (n + count) := by
  funext n
  exact skip_self script kind count n

@[simp] theorem skip_zero (script : Script) (kind : CallKind) : script.skip kind 0 = script := by
  simp [skip]

theorem skip_next (script : Script) (kind : CallKind) (count : ℕ) :
    (script.next kind).skip kind count = script.skip kind (count + 1) := by
  funext queried n
  by_cases same : queried = kind
  · subst same
    simp [Nat.add_assoc]
  · simp [same]

@[simp] theorem clear_next (kind : CallKind) : clear.next kind = clear := by
  funext queried n
  by_cases same : queried = kind
  · subst same
    simp [clear]
  · simp [same, clear]

end Script

/-- The world with the faults that are still to come. -/
structure Machine where
  world : World
  script : Script

/-- Answer a call with the next fault of its kind. -/
def handle (env : Environment) (call : Call) (m : Machine) : call.Answer × Machine :=
  let answered := answer env (m.script call.kind 0) call m.world
  (answered.1, ⟨answered.2, m.script.next call.kind⟩)

/-- Run a computation. -/
def run {α : Type} (env : Environment) (computation : GoM α) (m : Machine) :
    Except PanicValue α × Machine :=
  Program.run (handle env) computation m

/-- The calls of a run with their answers, in order. -/
def trace {α : Type} (env : Environment) (computation : GoM α) (m : Machine) :
    List (Σ call : Call, call.Answer) :=
  Program.trace (handle env) computation m

/-- Run a computation without faults. -/
def eval {α : Type} (env : Environment) (computation : GoM α) (w : World) :
    Except PanicValue α × World :=
  ((run env computation ⟨w, .clear⟩).1, (run env computation ⟨w, .clear⟩).2.world)

section Run

variable {α β : Type} (env : Environment)

@[simp] theorem run_ret (value : α) (m : Machine) :
    run env (.ret value) m = (.ok value, m) := rfl

@[simp] theorem run_raise (value : PanicValue) (m : Machine) :
    run env (raise value : GoM α) m = (.error value, m) := rfl

@[simp] theorem run_call (call : Call) (rest : call.Answer → GoM α) (m : Machine) :
    run env (.call call rest) m =
      run env (rest (handle env call m).1) (handle env call m).2 := rfl

@[simp] theorem run_perform (call : Call) (m : Machine) :
    run env (perform call) m = (.ok (handle env call m).1, (handle env call m).2) := rfl

/-- A sequence runs its parts in order, and stops at a panic of the first. -/
theorem run_bind (first : GoM α) (next : α → GoM β) (m : Machine) :
    run env (first.bind next) m =
      match run env first m with
      | (.ok value, later) => run env (next value) later
      | (.error panic, later) => (.error panic, later) := by
  simp only [run, Program.run_bind]
  rcases Program.run (handle env) first m with ⟨_ | _, _⟩ <;> rfl

theorem run_bind_of_ok {first : GoM α} {m later : Machine} {value : α}
    (ran : run env first m = (.ok value, later)) (next : α → GoM β) :
    run env (first.bind next) m = run env (next value) later := by
  rw [run_bind, ran]

/-- A cleanup runs from where its body ended. -/
theorem run_deferring (cleanup : GoM Unit) (body : GoM α) (m : Machine) :
    run env (Program.deferring cleanup body) m =
      match run env cleanup (run env body m).2 with
      | (.ok _, last) => ((run env body m).1, last)
      | (.error panic, last) => (.error panic, last) := by
  simp only [run, Program.run_deferring]
  rcases Program.run (handle env) cleanup _ with ⟨_ | _, _⟩ <;> rfl

/-- A recovered computation continues from where it panicked. -/
theorem run_recovering (handler : PanicValue → GoM α) (body : GoM α) (m : Machine) :
    run env (Program.recovering handler body) m =
      match run env body m with
      | (.ok value, later) => (.ok value, later)
      | (.error panic, later) => run env (handler panic) later := by
  simp only [run, Program.run_recovering]
  rcases Program.run (handle env) body m with ⟨_ | _, _⟩ <;> rfl

theorem trace_bind (first : GoM α) (next : α → GoM β) (m : Machine) :
    trace env (first.bind next) m = trace env first m ++
      match run env first m with
      | (.ok value, later) => trace env (next value) later
      | (.error _, _) => [] := by
  simp only [trace, Program.trace_bind, run]
  rcases Program.run (handle env) first m with ⟨_ | _, _⟩ <;> rfl

theorem trace_deferring (cleanup : GoM Unit) (body : GoM α) (m : Machine) :
    trace env (Program.deferring cleanup body) m =
      trace env body m ++ trace env cleanup (run env body m).2 :=
  Program.trace_deferring (handle env) cleanup body m

end Run

/-! ## Taking turns -/

/-- The answers a call may get when any fault may strike. -/
def Answers (env : Environment) (w : World) (call : Call) (given : call.Answer) (after : World) :
    Prop :=
  ∃ fault, answer env fault call w = (given, after)

end DawnPatrol.Execution
