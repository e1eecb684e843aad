import DawnPatrol.Foundation.Promises
import DawnPatrol.Http.Mux
import DawnPatrol.Requests.OtherAssociations

/-!
# The server

`ListenAndServe` serves every request in a goroutine of its own, and all of them
share the two databases. A visit is such a request, with the store as it was
when the visit began, and it writes a response of its own.

The calls of visits take turns in any order, and each call may meet a fault,
except those of the visits that are spared. So this is a pool of programs. Its
contract says what a visit does (`VisitStep`): a visit that copies an acronym
takes steps of copies of it, all others leave the store alone, and nobody
writes the response of another.

Seen by any one visit the store only grows (`Grown`): its events stay first, and
a host that resolves stays with its association.
-/

set_option autoImplicit false

namespace DawnPatrol.Server

open Foundation Go Api Postgres Execution Db Rails RailsDb Http Requests

/-! ## The world of the server -/

/-- What all visits share, and the response of each. -/
structure ServerWorld where
  shared : World
  responses : ℕ → Response := fun _ => {}

/-- The world as a visit sees it, with the response it writes. -/
def ServerWorld.seenBy (s : ServerWorld) (id : ℕ) : World :=
  { s.shared with response := s.responses id }

/-- The world of the server when a visit has left its own so. -/
def ServerWorld.left (s : ServerWorld) (id : ℕ) (w : World) : ServerWorld where
  shared := { w with response := s.shared.response }
  responses := Function.update s.responses id w.response

@[simp] theorem ServerWorld.seenBy_left (s : ServerWorld) (id : ℕ) (w : World) :
    (s.left id w).seenBy id = w := by
  simp [ServerWorld.seenBy, ServerWorld.left]

/-- A request that is served, and the store when it came. -/
structure Visit where
  id : ℕ
  request : Incoming
  origin : Store

/-- The acronym that a visit copies. -/
def Visit.copies (visit : Visit) : Option String :=
  let acronym := visit.request.postFormValue "association"
  if destination visit.request = .copy ∧ acronym ≠ "" then some acronym else none

/-- The circumstances of a run: the visits whose calls meet no faults, whether a copy
waits until no other copy of its acronym runs, and what the Rails databases may
hold. -/
structure Circumstances where
  spared : Visit → Prop
  exclusive : Prop
  admissible : (String → RailsDatabase) → Prop

/-- The rules of the server. A visit has a response writer of its own. -/
def serverRules (env : Environment) (newRelicApp : Bool) (c : Circumstances) :
    Rules Call Call.Answer PanicValue Unit ServerWorld Visit where
  exec visit before call given after :=
    ∃ fault w, (c.spared visit → fault = .none) ∧
      answer env fault call (before.seenBy visit.id) = (given, w) ∧
      after = before.left visit.id w
  starts pool visit program :=
    program = Mux.serveHTTP (muxConfig env newRelicApp) visit.request ∧
      visit.origin = pool.world.shared.store ∧ pool.world.responses visit.id = {} ∧
      (∀ thread ∈ pool.threads, thread.1.id ≠ visit.id) ∧
      (c.exclusive → ∀ other, pool.IsLive other →
        ∀ acronym, visit.copies = some acronym → other.copies ≠ some acronym)
  outside before after := ∃ rails, c.admissible rails ∧
    after = { before with shared := { before.shared with rails := rails } }

/-! ## Stores that grow -/

/-- A later store, as far as readers see it. -/
structure Grown (env : Environment) (st next : Store) : Prop where
  below : IDsBelow next
  events : st.events <+: next.events
  resolves : ∀ host row, Gorm.firstAssociation env.operator (.hostMatches host) {} st = some row →
    Gorm.firstAssociation env.operator (.hostMatches host) {} next = some row

section Grown

variable {env : Environment} {careful : Prop} {acronym : String} {st next last : Store}

theorem Grown.refl (below : IDsBelow st) : Grown env st st where
  below := below
  events := List.prefix_rfl
  resolves _ _ found := found

theorem Grown.trans (first : Grown env st next) (second : Grown env next last) :
    Grown env st last where
  below := second.below
  events := first.events.trans second.events
  resolves host row found := second.resolves host row (first.resolves host row found)

/-- The events of an association stay first. -/
theorem Grown.findEvents (grown : Grown env st next) (id : ℤ) :
    Gorm.findEvents id st <+: Gorm.findEvents id next :=
  grown.events.filter _

/-- **A step of a copy** lets the store grow. -/
theorem Grown.step (below : IDsBelow st) (step : StoreStep env careful acronym st next) :
    Grown env st next := by
  refine ⟨below.step step, ?_, ?_⟩
  · cases step with
    | addedEvent => exact List.prefix_append _ _
    | _ => exact List.prefix_rfl
  · intro host row found
    cases step with
    | addedAssociation fresh copied drawn =>
        rename_i added
        refine firstBy_append_of_lt found fun other new => ?_
        -- the id that was drawn is none of the stored ones, and none of them passes it
        have member := (mem_of_firstBy found).1
        have atMost := below row member
        have notStored : row.id ≠ added.id := fun same =>
          fresh.id (same ▸ List.mem_map_of_mem member)
        rw [List.mem_singleton.mp new]
        omega
    | _ => exact found

end Grown

/-! ## What a visit does -/

/-- A step of a visit. -/
structure VisitStep (env : Environment) (visit : Visit) (before after : ServerWorld) : Prop where
  store : after.shared.store = before.shared.store ∨ ∃ acronym, visit.copies = some acronym ∧
    StoreStep env False acronym before.shared.store after.shared.store
  rails : after.shared.rails = before.shared.rails
  responses : ∀ id, id ≠ visit.id → after.responses id = before.responses id

variable (env : Environment) (newRelicApp : Bool) (c : Circumstances)

/-- The contract of the server. Visits have different ids, and in exclusive runs they
do not copy the same acronym. -/
def serverContract : Pool.Contract (serverRules env newRelicApp c) :=
  .ofGuarantee _ (VisitStep env) fun visit other => visit.id ≠ other.id ∧
    (c.exclusive → ∀ acronym, visit.copies = some acronym → other.copies ≠ some acronym)

/-- The program is safe for a visit, and ends with `post`. -/
abbrev Serves {α : Type} (visit : Visit) (program : GoM α)
    (post : Except PanicValue α → ServerWorld → Prop) (s : ServerWorld) : Prop :=
  program.Safe ((serverRules env newRelicApp c).exec visit)
    ((serverContract env newRelicApp c).rely visit) (VisitStep env visit) post s

section Steps

variable {env newRelicApp c} {visit : Visit} {before after : ServerWorld}

theorem VisitStep.grown (step : VisitStep env visit before after)
    (below : IDsBelow before.shared.store) : Grown env before.shared.store after.shared.store := by
  rcases step.store with same | ⟨acronym, -, copied⟩
  · rw [same]
    exact .refl below
  · exact .step below copied

/-- What the others do lets the store grow, and leaves the response alone. -/
theorem grown_of_rely (moved : (serverContract env newRelicApp c).rely visit before after)
    (below : IDsBelow before.shared.store) :
    Grown env before.shared.store after.shared.store ∧
      after.responses visit.id = before.responses visit.id := by
  induction moved with
  | refl => exact ⟨.refl below, rfl⟩
  | tail _ one ih =>
      obtain ⟨grown, kept⟩ := ih
      rcases one with ⟨rails, -, rfl⟩ | ⟨other, ⟨different, -⟩, step⟩
      · exact ⟨grown, kept⟩
      · exact ⟨grown.trans (step.grown grown.below), (step.responses _ different).trans kept⟩

/-- Calls that leave the store alone. -/
def LeavesStore : Call → Prop
  | .createAssociation _ | .createEvent _ => False
  | _ => True

/-- The response after a call. -/
def responded : Call → Response → Response
  | .setHeader name value, r => { r with headers := r.headers ++ [(name, value)] }
  | .writeHeader code, r => { r with status := some (r.status.getD code) }
  | .write text, r => { r with status := some r.finalStatus, body := r.body ++ text }
  | _, r => r

/-- What a call that leaves the store alone does. -/
theorem answer_leaves (fault : Fault) {call : Call} (leaves : LeavesStore call) (w : World) :
    (answer env fault call w).2.store = w.store ∧ (answer env fault call w).2.rails = w.rails ∧
      (answer env fault call w).2.response = responded call w.response := by
  cases call with
  | createAssociation | createEvent => exact leaves.elim
  | openConn | loadLocation => cases fault <;> exact ⟨rfl, rfl, rfl⟩
  | _ => exact ⟨rfl, rfl, rfl⟩

/-- **The rule of calls** that leave the store alone. -/
theorem Serves.call {α : Type} {call : Call} {rest : call.Answer → GoM α}
    {post : Except PanicValue α → ServerWorld → Prop} {s : ServerWorld}
    (leaves : LeavesStore call) (below : IDsBelow s.shared.store)
    (next : ∀ fault (w : World) (later : ServerWorld), (c.spared visit → fault = .none) →
      w.store = later.shared.store → Grown env s.shared.store later.shared.store →
      later.responses visit.id = responded call (s.responses visit.id) →
      Serves env newRelicApp c visit (rest (answer env fault call w).1) post later) :
    Serves env newRelicApp c visit (.call call rest) post s := by
  rintro between moved given later ⟨fault, w, spared, answered, rfl⟩
  obtain ⟨grown, kept⟩ := grown_of_rely moved below
  obtain ⟨store, rails, response⟩ := @answer_leaves env fault call leaves (between.seenBy visit.id)
  rw [answered] at store rails response
  have own : (between.left visit.id w).responses visit.id =
      responded call (s.responses visit.id) := by
    simp only [ServerWorld.left, Function.update_self, ← kept]
    exact response
  refine ⟨⟨.inl store, rails, fun id other => ?_⟩, ?_⟩
  · simp [ServerWorld.left, other]
  · have isGiven : (answer env fault call (between.seenBy visit.id)).1 = given :=
      congrArg Prod.fst answered
    rw [← isGiven]
    refine next fault _ _ spared store.symm ?_ own
    exact (show w.store = between.shared.store from store) ▸ grown

/-- The rule of ends: what has been brought about outlasts the steps of the others. -/
theorem Serves.ended (outcome : Except PanicValue Unit)
    {post : Except PanicValue Unit → ServerWorld → Prop} {s : ServerWorld}
    (below : IDsBelow s.shared.store)
    (holds : ∀ later : ServerWorld, Grown env s.shared.store later.shared.store →
      later.responses visit.id = s.responses visit.id → post outcome later) :
    Serves env newRelicApp c visit (Pool.ended outcome) post s := by
  have still : ∀ later, (serverContract env newRelicApp c).rely visit s later →
      post outcome later := by
    intro later moved
    obtain ⟨grown, kept⟩ := grown_of_rely moved below
    exact holds later grown kept
  cases outcome <;> exact still

/-! ## Copies on the server -/

/-- What the others do is what copies do, seen by a visit. -/
theorem copies_of_rely (acronym : String)
    (moved : (serverContract env newRelicApp c).rely visit before after) :
    (copyContract env False c.admissible).rely acronym (before.seenBy visit.id)
      (after.seenBy visit.id) := by
  induction moved with
  | refl => exact .refl
  | tail _ one ih =>
      refine ih.tail ?_
      rcases one with ⟨rails, admissible, rfl⟩ | ⟨other, ⟨different, -⟩, step⟩
      · exact .inl ⟨rails, admissible, rfl⟩
      · refine .inr ⟨(other.copies).getD "", False.elim, ?_, step.rails,
          step.responses _ different⟩
        rcases step.store with same | ⟨copied, isCopied, step⟩
        · exact same ▸ .same _
        · rw [isCopied]
          exact step

/-- **A copy is safe on the server**, and writes no response. -/
theorem copyRequest_serves {acronym : String} (copies : visit.copies = some acronym)
    {s : ServerWorld} (below : IDsBelow s.shared.store) :
    Serves env newRelicApp c visit (copyRequest env acronym)
      (fun _ later => IDsBelow later.shared.store ∧
        later.responses visit.id = s.responses visit.id) s := by
  have named : acronym ≠ "" := by
    simp only [Visit.copies, Option.ite_none_right_eq_some, Option.some.injEq] at copies
    exact copies.2 ▸ copies.1.2
  have safe := @copyRequest_safely env False c.admissible acronym named (s.seenBy visit.id)
  have carried := safe.carry
    (fun w => IDsBelow w.store ∧ w.response = s.responses visit.id) ?_ ?_ ⟨below, rfl⟩
  · refine Program.Safe.mono ?_ (carried.within (·.seenBy visit.id) ?_
      (fun _ _ moved => copies_of_rely acronym moved) ?_)
    · exact fun _ _ holds => holds.2
    · rintro between call given later ⟨fault, w, -, answered, rfl⟩
      rw [ServerWorld.seenBy_left]
      exact ⟨⟨fault, answered⟩, False.elim⟩
    · rintro between call given later ⟨fault, w, -, answered, rfl⟩ step
      rw [ServerWorld.seenBy_left] at step
      refine ⟨.inr ⟨acronym, copies, step.store⟩, step.rails, fun id other => ?_⟩
      simp [ServerWorld.left, other]
  · intro first last moved holds
    induction moved with
    | refl => exact holds
    | tail _ one ih =>
        rcases one with ⟨rails, -, rfl⟩ | ⟨other, -, step⟩
        · exact ih
        · exact ⟨ih.1.step step.store, step.response.trans ih.2⟩
  · exact fun first last step holds => ⟨holds.1.step step.store, step.response.trans holds.2⟩

end Steps

end DawnPatrol.Server
