import DawnPatrol.Http.Panics

/-!
# The connection pools of copies

A run opens and closes pools, and the open ones are what this ledger leaves
(`conns_run`). A copy opens a pool for the events and closes it when it ends,
and opens a second one for the racing association, which nothing closes
(`poolActions_copy`). So a copy closes what it opens exactly when one of its
two connections cannot be opened, and every other copy leaves one pool open
(`copies_close_pools_iff`).
-/

set_option autoImplicit false

namespace DawnPatrol.Requests

open Foundation Go Api Postgres Execution Db Rails RailsDb Http

/-! ## The ledger of pools -/

/-- What a call does to the pools. -/
inductive PoolAction where
  | opened (conn : Conn)
  | closed (conn : Conn)
  deriving DecidableEq

/-- The pool action of an answered call. -/
def poolAction : (Σ call : Call, call.Answer) → Option PoolAction
  | ⟨.openConn _ _, .ok conn⟩ => some (.opened conn)
  | ⟨.closeConn conn, _⟩ => some (.closed conn)
  | _ => none

/-- The pool actions of a run, in order. -/
def poolActions {α : Type} (env : Environment) (computation : GoM α) (m : Machine) :
    List PoolAction :=
  (trace env computation m).filterMap poolAction

/-- The open pools after an action. -/
def PoolAction.apply (conns : List Conn) : PoolAction → List Conn
  | opened conn => conn :: conns
  | closed conn => conns.erase conn

/-- Every pool that was opened has been closed exactly once. -/
def ClosedOnce (actions : List PoolAction) : Prop :=
  ∀ conn, .opened conn ∈ actions → actions.count (.closed conn) = 1

/-- What attempts to open a pool come to. -/
def openedPool (conn : Conn) : Except PanicValue ℕ → List PoolAction
  | .ok _ => [.opened conn]
  | .error _ => []

@[simp] theorem openedPool_ok (conn : Conn) (failures : ℕ) :
    openedPool conn (.ok failures) = [.opened conn] := rfl
@[simp] theorem openedPool_error (conn : Conn) (panic : PanicValue) :
    openedPool conn (.error panic) = [] := rfl

/-- Calls that leave the pools alone. -/
def LeavesPools : Call → Prop
  | .openConn .. | .closeConn .. => False
  | _ => True

section Ledger

variable {α β : Type} {env : Environment}

theorem poolActions_bind (first : GoM α) (next : α → GoM β) (m : Machine) :
    poolActions env (first.bind next) m = poolActions env first m ++
      match run env first m with
      | (.ok value, later) => poolActions env (next value) later
      | (.error _, _) => [] := by
  simp only [poolActions, trace_bind, List.filterMap_append]
  rcases run env first m with ⟨_ | _, _⟩ <;> rfl

theorem poolActions_call (call : Call) (rest : call.Answer → GoM α) (m : Machine) :
    poolActions env (.call call rest) m =
      (poolAction ⟨call, (handle env call m).1⟩).toList ++
        poolActions env (rest (handle env call m).1) (handle env call m).2 := by
  simp only [poolActions, trace, Program.trace_call, List.filterMap_cons]
  cases poolAction ⟨call, (handle env call m).1⟩ <;> rfl

theorem poolActions_deferring (cleanup : GoM Unit) (body : GoM α) (m : Machine) :
    poolActions env (Program.deferring cleanup body) m =
      poolActions env body m ++ poolActions env cleanup (run env body m).2 := by
  simp only [poolActions, trace_deferring, List.filterMap_append]

/-- A computation that makes no call of a pool has no pool actions. -/
theorem poolActions_of_leaves {computation : GoM α} (leaves : computation.Only LeavesPools)
    (m : Machine) : poolActions env computation m = [] := by
  refine List.filterMap_eq_nil_iff.mpr fun answered member => ?_
  have allowed := leaves.trace (handle env) m answered member
  obtain ⟨call, given⟩ := answered
  cases call with
  | openConn => exact absurd allowed id
  | closeConn => exact absurd allowed id
  | _ => rfl

/-- The open pools after a call are those of its action. -/
theorem conns_answer (fault : Fault) (call : Call) (w : World) :
    (answer env fault call w).2.conns =
      (poolAction ⟨call, (answer env fault call w).1⟩).toList.foldl PoolAction.apply w.conns := by
  cases call with
  | openConn => cases fault <;> rfl
  | loadLocation => cases fault <;> rfl
  | _ => rfl

/-- **The open pools after a run** are those of its ledger. -/
theorem conns_run (computation : GoM α) (m : Machine) :
    (run env computation m).2.world.conns =
      (poolActions env computation m).foldl PoolAction.apply m.world.conns := by
  induction computation generalizing m with
  | ret value => rfl
  | raise panic => rfl
  | call call rest ih =>
      have rested := ih (handle env call m).1 (handle env call m).2
      have answered : (handle env call m).2.world.conns =
          (poolAction ⟨call, (handle env call m).1⟩).toList.foldl PoolAction.apply
            m.world.conns := conns_answer _ call m.world
      rw [run_call, rested, answered, ← List.foldl_append, poolActions_call]

end Ledger

/-! ## The pools of a copy -/

section Copy

variable {env : Environment}

/-- The attempts to open a data source name open one pool, or none. -/
theorem poolActions_attemptToOpen (driver url : String) (err : Option GoError) (attempts : ℕ)
    (m : Machine) :
    poolActions env (attemptToOpen driver url err attempts) m =
      openedPool ⟨m.world.nextConn, url⟩
        (openOutcome driver url (m.script .openConn) err attempts) := by
  induction attempts generalizing err m with
  | zero => rfl
  | succ attempts ih =>
      obtain ⟨rest, attempted, onOpened, onError⟩ : ∃ rest : Except GoError Conn → GoM Conn,
          poolActions env (attemptToOpen driver url err (attempts + 1)) m =
            poolActions env (.call (.openConn driver url) rest) m ∧
          (∀ conn, rest (.ok conn) = .ret conn) ∧
          ∀ failed, rest (.error failed) = attemptToOpen driver url (some failed) attempts :=
        ⟨_, rfl, fun _ => rfl, fun _ => rfl⟩
      rw [attempted, poolActions_call]
      simp only [handle, Call.kind, openOutcome]
      cases first : m.script .openConn 0 with
      | none => simp only [answer, onOpened]; rfl
      | fail failed progress =>
          simp only [answer, poolAction, Option.toList_none, List.nil_append, onError]
          rw [ih]
          simp only [Script.next_kind]
          cases openOutcome driver url (fun n => m.script .openConn (n + 1)) (some failed) attempts
            <;> rfl

theorem create_leaves (events : List Api.Event) :
    (Db.EventService.create events).Only LeavesPools := by
  induction events with
  | nil => exact trivial
  | cons event events ih =>
      simp only [Db.EventService.create]
      split
      · exact trivial
      · exact ⟨trivial, fun _ => ih⟩

theorem firstOrCreate_leaves (association : Association) :
    (Db.AssociationService.firstOrCreate association).Only LeavesPools := by
  refine ⟨trivial, fun found => ?_⟩
  simp only [Program.ret_bind]
  split
  · exact ⟨trivial, fun _ => trivial⟩
  · exact trivial

/-- What a copy writes leaves the pools alone. -/
theorem writeCopy_leaves (acronym : String) (railsEvents : List Rails.Event)
    (racing : RacingAssociation) :
    (RacingAssociationService.writeCopy env eventService associationService acronym railsEvents
      racing).Only LeavesPools := by
  refine (firstOrCreate_leaves _).bind fun association => ?_
  refine (copiedEvents_only trivial association.id railsEvents).bind fun copied => ?_
  cases copied with
  | error err => exact trivial
  | ok events => exact (create_leaves events).bind fun _ => trivial

/-- A connection opens one pool, or none. -/
theorem poolActions_for (association : String) (m : Machine) :
    let url := databaseURL env association
    poolActions env (Databases.for env association) m =
      openedPool ⟨m.world.nextConn, url⟩
        (openOutcome (databaseDriver url) url (m.script .openConn) none 10) :=
  poolActions_attemptToOpen _ _ none 10 m

/-- Finding a racing association opens a pool and closes none. -/
theorem poolActions_find (acronym : String) (m : Machine) :
    let url := databaseURL env acronym
    poolActions env (RacingAssociationService.find env acronym) m =
      openedPool ⟨m.world.nextConn, url⟩
        (openOutcome (databaseDriver url) url (m.script .openConn) none 10) := by
  simp only [RailsDb.RacingAssociationService.find, Program.bind_eq, poolActions_bind, run_for,
    poolActions_for]
  cases openOutcome (databaseDriver (databaseURL env acronym)) (databaseURL env acronym)
      (m.script .openConn) none 10 <;> rfl

theorem poolActions_copyFrom (db : Conn) (acronym : String) (m : Machine) :
    let url := databaseURL env acronym
    poolActions env (RacingAssociationService.copyFrom env eventService associationService db
        acronym) m =
      openedPool ⟨m.world.nextConn, url⟩
        (openOutcome (databaseDriver url) url (m.script .openConn) none 10) := by
  obtain ⟨rest, reads, onFound, onError⟩ :=
    @copyFrom_reads_then_finds env eventService db acronym
  set given := (m.script .findRailsEvents 0).scanned (m.world.rails db.url).events
  have read : poolActions env (RacingAssociationService.copyFrom env eventService
      associationService db acronym) m =
        poolActions env (Program.bind (RacingAssociationService.find env acronym) (rest given))
          ⟨m.world, m.script.next .findRailsEvents⟩ := by
    rw [reads, poolActions_call]
    rfl
  have sameFaults : m.script.next .findRailsEvents .openConn = m.script .openConn := rfl
  simp only [read, poolActions_bind, poolActions_find, run_find, sameFaults]
  cases openOutcome (databaseDriver (databaseURL env acronym)) (databaseURL env acronym)
      (m.script .openConn) none 10 with
  | error panic => rfl
  | ok failures =>
      rcases racingAssociationFound env (m.script.next .findRailsEvents)
        (m.world.rails (databaseURL env acronym)) acronym with ⟨racing, _ | err⟩
      · simp only [onFound, poolActions_of_leaves (writeCopy_leaves ..), List.append_nil]
      · simp only [onError]
        rfl

/-- **The pools of a copy**: none when it cannot connect, one that is opened and
closed when it cannot connect again, and else a second one that stays open. -/
theorem poolActions_copy (acronym : String) (m : Machine) :
    let url := databaseURL env acronym
    poolActions env (copyRequest env acronym) m =
      match openOutcome (databaseDriver url) url (m.script .openConn) none 10 with
      | .error _ => []
      | .ok failures =>
          .opened ⟨m.world.nextConn, url⟩ ::
            openedPool ⟨m.world.nextConn + 1, url⟩ (openOutcome (databaseDriver url) url
              (fun n => m.script .openConn (n + (failures + 1))) none 10) ++
            [.closed ⟨m.world.nextConn, url⟩] := by
  simp only [RailsDb.RacingAssociationService.copy, Program.bind_eq, poolActions_bind, run_for,
    poolActions_for]
  cases openOutcome (databaseDriver (databaseURL env acronym)) (databaseURL env acronym)
      (m.script .openConn) none 10 with
  | error panic => rfl
  | ok failures =>
      simp only [poolActions_deferring, poolActions_copyFrom, Script.skip_kind]
      rfl

/-- A copy closes its pools exactly when it does not connect, and leaves one open
otherwise. -/
theorem pools_of_copy (acronym : String) (m : Machine) :
    (ClosedOnce (poolActions env (copyRequest env acronym) m) ∧ ¬ Connects (m.script .openConn) ∧
        (run env (copyRequest env acronym) m).2.world.conns = m.world.conns) ∨
      (¬ ClosedOnce (poolActions env (copyRequest env acronym) m) ∧
        Connects (m.script .openConn) ∧
        (run env (copyRequest env acronym) m).2.world.conns.length =
          m.world.conns.length + 1) := by
  rw [conns_run, poolActions_copy]
  set url := databaseURL env acronym with urlIs
  rw [connects_iff (databaseDriver url) url]
  cases first : openOutcome (databaseDriver url) url (m.script .openConn) none 10 with
  | error panic =>
      refine .inl ⟨fun conn opened => ?_, ?_, rfl⟩
      · cases opened
      · rintro ⟨failures, opens, -⟩
        cases opens
  | ok failures =>
      cases second : openOutcome (databaseDriver url) url
          (fun n => m.script .openConn (n + (failures + 1))) none 10 with
      | error panic =>
          refine .inl ⟨fun conn opened => ?_, ?_, ?_⟩
          · obtain rfl : conn = ⟨m.world.nextConn, url⟩ := by simpa [second] using opened
            simp [second]
          · rintro ⟨_, opens, more, again⟩
            cases opens
            rw [second] at again
            cases again
          · simp [second, PoolAction.apply]
      | ok more =>
          have different : (⟨m.world.nextConn + 1, url⟩ : Conn) ≠ ⟨m.world.nextConn, url⟩ := by
            simp
          refine .inr ⟨fun closed => ?_, ⟨failures, rfl, more, second⟩, ?_⟩
          · -- nothing closes the second pool
            have once := closed ⟨m.world.nextConn + 1, url⟩ (by simp [second])
            simp [second] at once
          · simp [second, PoolAction.apply]

end Copy

/-! ## Runs of copies -/

/-- A request for a copy, with the faults that its calls meet. -/
structure CopyCall where
  acronym : String
  script : Script

namespace CopyCall

variable (env : Environment)

/-- The machine that a request starts in. -/
def machine (request : CopyCall) (w : World) : Machine := ⟨w, request.script⟩

/-- The world after a request. -/
def after (request : CopyCall) (w : World) : World :=
  (run env (copyRequest env request.acronym) (request.machine w)).2.world

/-- The world after some requests, one after the other. -/
def afterAll : List CopyCall → World → World
  | [], w => w
  | request :: requests, w => afterAll requests (request.after env w)

/-- Each of some requests closes every pool that it opens exactly once. -/
def AllClose : List CopyCall → World → Prop
  | [], _ => True
  | request :: requests, w =>
      ClosedOnce (poolActions env (copyRequest env request.acronym) (request.machine w)) ∧
        AllClose requests (request.after env w)

end CopyCall

/-- **Copies close every pool they open**, and leave as many open as there were,
exactly when none of them opens both of its connections. -/
theorem copies_close_pools_iff (env : Environment) (requests : List CopyCall) (w : World) :
    CopyCall.AllClose env requests w ∧
        (CopyCall.afterAll env requests w).conns.length = w.conns.length ↔
      ∀ request ∈ requests, ¬ Connects (request.script .openConn) := by
  induction requests generalizing w with
  | nil => exact iff_of_true ⟨trivial, rfl⟩ (by simp)
  | cons request requests ih =>
      rw [List.forall_mem_cons, ← ih (request.after env w)]
      simp only [CopyCall.AllClose, CopyCall.afterAll]
      rcases @pools_of_copy env request.acronym (request.machine w) with
        ⟨closed, unconnected, same⟩ | ⟨unclosed, connected, -⟩
      · have kept : (request.after env w).conns.length = w.conns.length :=
          congrArg List.length same
        have fails : ¬ Connects (request.script .openConn) := unconnected
        rw [kept, and_assoc, and_iff_right closed, and_iff_right fails]
      · exact iff_of_false (fun both => unclosed both.1.1) fun both => both.1 connected

/-- **A copy that connects** leaves the pool of its racing association open. -/
theorem copy_leaves_pool_open :
    ¬ ∀ (env : Environment) (requests : List CopyCall) (w : World),
      CopyCall.AllClose env requests w ∧
        (CopyCall.afterAll env requests w).conns.length = w.conns.length := by
  intro closes
  obtain ⟨⟨closed, -⟩, -⟩ := closes .plain [⟨"CBRA", .clear⟩] (.withEvent .empty "CBRA")
  exact absurd (closed ⟨1, databaseURL .plain "CBRA"⟩ (by decide)) (by decide)

end DawnPatrol.Requests
